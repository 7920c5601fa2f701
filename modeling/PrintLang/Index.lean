set_option autoImplicit false

namespace PrintLang

/-- The element at an index that may be negative. -/
def atIndex? {α : Type} (items : Array α) : Int → Option α
  | .ofNat n => items[n]?
  | .negSucc _ => none

theorem atIndex?_natCast {α : Type} (items : Array α) (n : Nat) :
    atIndex? items (n : Int) = items[n]? := rfl

end PrintLang
