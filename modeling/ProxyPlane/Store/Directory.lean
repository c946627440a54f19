import ProxyPlane.Store.Basic

/-!
# Directories

The store is kept in a directory, which is made if it is not there.
-/

set_option autoImplicit false
namespace ProxyPlane

/-- A directory to keep a store in. -/
inductive Directory
  /-- It cannot be made. -/
  | blocked
  /-- The file in it is no store. -/
  | corrupt
  /-- It holds a store; a new one is empty. -/
  | holding (store : Store)

namespace Directory

/-- Whether the directory is there or can be made. -/
def usable : Directory → Bool
  | .blocked => false
  | .corrupt | .holding _ => true

/-- The store in a directory. -/
def store : Directory → Except StoreError Store
  | .blocked => .error (.directory "store.create_dir")
  | .corrupt => .error .setup
  | .holding store => .ok store

end Directory
end ProxyPlane
