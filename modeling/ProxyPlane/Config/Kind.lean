/-!
# Kinds of section

A configuration has three textual sections.  Each kind has a label, under which it is stored and
addressed, and a block name, under which it is written in the configuration language; the two
differ for the global options only.
-/

set_option autoImplicit false
namespace ProxyPlane

/-- The three kinds of section. -/
inductive SectionKind
  | config
  | dns
  | routing
  deriving DecidableEq, Repr

namespace SectionKind

/-- All kinds, in the order in which they are checked. -/
def all : List SectionKind := [.config, .dns, .routing]

/-- The name under which sections of a kind are stored and addressed. -/
def label : SectionKind → String
  | .config => "config"
  | .dns => "dns"
  | .routing => "routing"

/-- The name of the block in the configuration language. -/
def blockName : SectionKind → String
  | .config => "global"
  | .dns => "dns"
  | .routing => "routing"

/-- The kind with a label. -/
def ofLabel? (label : String) : Option SectionKind :=
  all.find? fun kind => kind.label == label

/-- The kind with a block name. -/
def ofBlockName? (name : String) : Option SectionKind :=
  all.find? fun kind => kind.blockName == name

theorem ofLabel?_label (kind : SectionKind) : ofLabel? kind.label = some kind := by
  cases kind <;> decide

end SectionKind
end ProxyPlane
