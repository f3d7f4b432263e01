/-
# Numbers in text

Reading natural numbers that are written with digits, below a bound.

Key definitions: `natural?`, `decimal?`.
-/

namespace Teardown
namespace Text

/-- The value of a digit in a base of at most sixteen. -/
def digit? (base : Nat) (c : Char) : Option Nat :=
  let value :=
    if '0' ≤ c ∧ c ≤ '9' then some (c.toNat - '0'.toNat)
    else if 'a' ≤ c ∧ c ≤ 'f' then some (c.toNat - 'a'.toNat + 10)
    else if 'A' ≤ c ∧ c ≤ 'F' then some (c.toNat - 'A'.toNat + 10)
    else none
  value.filter (· < base)

/-- The number that digits of a base denote, if there is at least one digit and
the number is below the bound. -/
def natural? (base bound : Nat) (ds : List Char) : Option Nat :=
  if ds.isEmpty then none
  else
    match ds.mapM (digit? base) with
    | none => none
    | some values =>
        let n := values.foldl (fun n d => base * n + d) 0
        if n < bound then some n else none

/-- The number below the bound that decimal digits denote, if there is at least
one digit. -/
def decimal? (bound : Nat) (ds : List Char) : Option Nat :=
  if ds.isEmpty || !ds.all Char.isDigit then none
  else
    let n := Nat.ofDigitChars 10 ds 0
    if n < bound then some n else none

/-- What is written for a number reads back as that number. -/
theorem decimal?_toDigits {n bound : Nat} (h : n < bound) :
    decimal? bound (Nat.toDigits 10 n) = some n := by
  have hd : (Nat.toDigits 10 n).all Char.isDigit = true :=
    List.all_eq_true.mpr fun c hc => Nat.isDigit_of_mem_toDigits (by decide) (by decide) hc
  have hne : (Nat.toDigits 10 n).isEmpty = false := by
    simp
  simp [decimal?, hd, hne, Nat.ofDigitChars_toDigits (b := 10) (n := n) (by decide) (by decide), h]

end Text
end Teardown
