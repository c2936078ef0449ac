import PageTemplates.Site.Compile

/-!
Compiled pages kept by name.  A name that was asked for has a slot; a compilation that failed leaves the
slot empty, so the next request tries again, and a full slot stays as it is.
-/

namespace PageTemplates.Site

open Template (Namespace)

/-- A compiled page.  Two compilations make two objects, told apart by their numbers, even when they
hold the same templates. -/
structure Compiled where
  serial : Nat
  view : Namespace
deriving Inhabited

structure Cache where
  slots : Table (Option Compiled)
deriving Inhabited

namespace Cache

def empty : Cache :=
  ⟨Table.empty⟩

def find? (cache : Cache) (name : Text) : Option Compiled :=
  (cache.slots.get? name).join

/-- The cache with a slot for the name, empty unless it was there. -/
def reserve (cache : Cache) (name : Text) : Cache :=
  if cache.slots.contains name then cache else ⟨cache.slots.insert name none⟩

def fill (cache : Cache) (name : Text) (page : Compiled) : Cache :=
  ⟨cache.slots.insert name (some page)⟩

def size (cache : Cache) : Nat :=
  cache.slots.entries.countP (·.2.isSome)

end Cache
end PageTemplates.Site
