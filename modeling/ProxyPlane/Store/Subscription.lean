import ProxyPlane.Store.Node

/-!
# Subscriptions in the store

A subscription owns the nodes that were imported for it.  Replacing or removing them moves the
version of every group that has the subscription attached or reaches one of its nodes.
-/

set_option autoImplicit false
namespace ProxyPlane

/-- The groups that have one of the given subscriptions attached. -/
def Store.groupsWith (s : Store) (subscriptions : List Id) : List Id :=
  (s.groups.rows.filter fun g => g.subscriptions.any subscriptions.contains).map (·.id)

namespace Transaction

/-- The subscription with an identifier. -/
def subscription (id : Id) : Transaction Subscription := do
  require .subscription id ((← get).subscriptions.find? id)

/-- A tag that no other subscription has. -/
def freeSubscriptionTag (tag : String) (owner : Option Id) : Transaction Unit := do
  match (← get).subscriptions.rows.find? fun s => s.tag == some tag with
  | some s => if some s.id != owner then throw (.alreadyExists .tag tag)
  | none => pure ()

/-- A new subscription with the default schedule. -/
def createSubscription (link : String) (tag : Option String) : Transaction Subscription := do
  check (checkLink link)
  if let some tag := tag then
    check (checkIdentifier .tag tag)
    freeSubscriptionTag tag none
  let s ← get
  set { s with subscriptions := s.subscriptions.push fun id =>
    ⟨id, link, tag, Subscription.defaultSchedule, true, "", ""⟩ }
  subscription (s.subscriptions.issued + 1)

/-- Replaces the nodes of a subscription by those of new links. -/
def replaceNodes (id : Id) (links : List String) : Transaction (List Imported) := do
  let _ ← subscription id
  let s ← get
  let touched := s.groupsReaching ((s.nodesOf id).map (·.id)) ++ s.groupsWith [id]
  set (s.dropNodes fun n => n.subscription == some id)
  let results ← importNodes (some id) false (links.map fun link => ⟨link, none⟩)
  bump touched
  return results

/-- Changes a subscription. -/
def editSubscription (id : Id) (f : Subscription → Subscription) : Transaction Subscription := do
  modify fun s => { s with subscriptions := s.subscriptions.modify id f }
  subscription id

/-- Records what came of a refresh. -/
def setStatus (id : Id) (status : String) : Transaction Unit := do
  let _ ← editSubscription id fun s => { s with status := status }

/-- Changes the schedule; what is not given stays. -/
def setSchedule (id : Id) (schedule : Option String) (scheduled : Option Bool) :
    Transaction Subscription :=
  editSubscription id fun s => { s with
    schedule := schedule.getD s.schedule
    scheduled := scheduled.getD s.scheduled }

/-- Removes subscriptions with the nodes they own, and tells how many there were. -/
def removeSubscriptions (ids : List Id) : Transaction Nat := do
  let s ← get
  let owned := fun (n : Node) => n.subscription.any ids.contains
  let touched := s.groupsReaching ((s.nodes.rows.filter owned).map (·.id)) ++ s.groupsWith ids
  let bare := s.dropNodes owned
  set { bare with
    subscriptions := bare.subscriptions.retain fun row => !ids.contains row.id
    groups := bare.groups.map fun g =>
      { g with subscriptions := g.subscriptions.filter fun id => !ids.contains id } }
  bump touched
  return (s.subscriptions.rows.filter fun row => ids.contains row.id).length

/-- Gives a subscription a tag. -/
def tagSubscription (id : Id) (tag : String) : Transaction Subscription := do
  check (checkIdentifier .tag tag)
  freeSubscriptionTag tag (some id)
  let _ ← subscription id
  editSubscription id fun s => { s with tag := some tag }

end Transaction
end ProxyPlane
