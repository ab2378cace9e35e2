import Carpark.Limits

/-!
Listings cut into pages.
-/

namespace Carpark

structure Page where
  number : Nat
  size : Nat
  deriving DecidableEq, Repr

structure Paged (α : Type) where
  items : List α
  total : Nat
  page : Page
  deriving Repr

namespace Page

def ofSize (number size : Nat) : Page := ⟨number, max 1 (min size Limits.pageSize)⟩

def first : Page := ⟨0, Limits.firstPageSize⟩

def slice {α : Type} (p : Page) (all : List α) : Paged α :=
  ⟨(all.drop (p.number * p.size)).take p.size, all.length, p⟩

end Page

end Carpark
