/-!
# Statements of the configuration language

A section is a list of statements.  A statement assigns a value to a key, opens a nested block, or
routes traffic: `conditions -> outbound`.

## Main definitions

* `Scalar`, `Argument`, `Call`, `Value`, `Rule`, `Statement` — the tree.
* `Value.toCall?` — a value read as the name of an outbound, with or without arguments.
* `Statement` has decidable equality.
-/

set_option autoImplicit false
namespace ProxyPlane
namespace Config

/-- A literal, and whether it stands in quotes. -/
structure Scalar where
  text : String
  quoted : Bool
  deriving DecidableEq, Repr

/-- A literal without quotes. -/
def Scalar.bare (text : String) : Scalar := ⟨text, false⟩

/-- A literal in quotes. -/
def Scalar.inQuotes (text : String) : Scalar := ⟨text, true⟩

/-- `key: value` or `value` inside the parentheses of a call. -/
structure Argument where
  key : Option String
  value : Scalar
  deriving DecidableEq, Repr

/-- `name(arguments)`, or `!name(arguments)`. -/
structure Call where
  name : String
  negated : Bool
  arguments : List Argument
  deriving DecidableEq, Repr

/-- A call without arguments. -/
def Call.named (name : String) : Call := ⟨name, false, []⟩

/-- What stands behind the colon of an assignment. -/
inductive Value
  | scalar (value : Scalar)
  | calls (chain : List Call)
  deriving DecidableEq, Repr

/-- A value as a single call: a literal names a call without arguments, and a chain has to have
exactly one member. -/
def Value.toCall? : Value → Option Call
  | .scalar s => some (.named s.text)
  | .calls [call] => some call
  | .calls _ => none

/-- `conditions -> outbound`. -/
structure Rule where
  conditions : List Call
  outbound : Call
  deriving DecidableEq, Repr

/-- One statement of a section. -/
inductive Statement
  | assignment (key : String) (value : Value)
  | block (name : String) (body : List Statement)
  | rule (rule : Rule)
  deriving Repr

instance : Inhabited Statement := ⟨.block "" []⟩

mutual
/-- Equality of statements, decided by their parts. -/
def Statement.decEq : (a b : Statement) → Decidable (a = b)
  | .assignment k v, .assignment k' v' =>
    if h : k = k' ∧ v = v' then .isTrue (by rw [h.1, h.2])
    else .isFalse fun e => h (by injection e with e₁ e₂; exact ⟨e₁, e₂⟩)
  | .block n b, .block n' b' =>
    match decEqList b b' with
    | .isTrue hb =>
      if hn : n = n' then .isTrue (by rw [hn, hb])
      else .isFalse fun e => hn (by injection e)
    | .isFalse hb => .isFalse fun e => hb (by injection e)
  | .rule r, .rule r' =>
    if h : r = r' then .isTrue (by rw [h]) else .isFalse fun e => h (by injection e)
  | .assignment .., .block .. => .isFalse nofun
  | .assignment .., .rule .. => .isFalse nofun
  | .block .., .assignment .. => .isFalse nofun
  | .block .., .rule .. => .isFalse nofun
  | .rule .., .assignment .. => .isFalse nofun
  | .rule .., .block .. => .isFalse nofun

/-- Equality of lists of statements. -/
def Statement.decEqList : (as bs : List Statement) → Decidable (as = bs)
  | [], [] => .isTrue rfl
  | [], _ :: _ => .isFalse nofun
  | _ :: _, [] => .isFalse nofun
  | a :: as, b :: bs =>
    match Statement.decEq a b, decEqList as bs with
    | .isTrue h, .isTrue hs => .isTrue (by rw [h, hs])
    | .isFalse h, _ => .isFalse fun e => h (by injection e)
    | _, .isFalse hs => .isFalse fun e => hs (by injection e)
end

instance : DecidableEq Statement := Statement.decEq

end Config
end ProxyPlane
