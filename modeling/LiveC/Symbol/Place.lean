import LiveC.Symbol.Linkage
/-!
# Where an address lies

An address that a name leads to lies in the host image, in one of some named libraries, or it is
that of a trampoline to one of those places.
-/

namespace LiveC

/-- Where an address lies. -/
inductive SymbolPlace
  | host
  | library (name : String)
  | bridged (target : Option SymbolPlace)
  deriving Repr

namespace SymbolPlace

/-- The text of a place. -/
def text : SymbolPlace → String
  | host => "host"
  | library name => "lib:" ++ name
  | bridged none => "bridged:?"
  | bridged (some target) => "bridged:" ++ target.text

end SymbolPlace

namespace Linkage

/-- Where the address lies that a name leads to without a trampoline: in the host image, or in the
first of some named libraries. -/
def directPlace? (k : Linkage) (opened : List (String × Address)) (name : String)
    (address : Address) : Option SymbolPlace :=
  if k.loader.symbol? Loader.hostHandle name == some address then some .host
  else (opened.find? fun l => k.loader.symbol? l.2 name == some address).map fun l => .library l.1

/-- Where the address lies that a name leads to. -/
def placeOf (k : Linkage) (opened : List (String × Address)) (name : String)
    (address : Address) : SymbolPlace :=
  (k.directPlace? opened name address).getD
    (.bridged ((k.code.target? address).bind (k.directPlace? opened name)))

end Linkage

end LiveC
