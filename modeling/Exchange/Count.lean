/-!
Counts that stop at the largest 64-bit number.
-/
namespace Exchange.Count

/-- The largest count. -/
def top : Nat := 18446744073709551615

/-- Addition that stays at `top` once it gets there. -/
def add (a b : Nat) : Nat := min (a + b) top

theorem add_le_top (a b : Nat) : add a b ≤ top := Nat.min_le_right ..

theorem add_eq {a b : Nat} (h : a + b ≤ top) : add a b = a + b := Nat.min_eq_left h

theorem le_add {a b : Nat} (h : a ≤ top) : a ≤ add a b := by
  unfold add; omega

end Exchange.Count
