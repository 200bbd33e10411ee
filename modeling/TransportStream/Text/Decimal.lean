/-!
# Decimal text with fixed places

A quotient of natural numbers is written with a fixed number of decimal places,
rounded to the nearest; of two equally near values the larger is taken.
-/

namespace TransportStream
namespace Text

-- Powers of natural numbers are those of the core library, whatever else is
-- imported.
attribute [local instance (high)] instPowNat

/-- The multiple of `1 / scale` nearest to `num / den`, counted in those
units. -/
def roundedUnits (num den scale : Nat) : Nat :=
  (2 * num * scale + den) / (2 * den)

def fixed (num den places : Nat) : String :=
  let units := roundedUnits num den (10 ^ places)
  let fraction := Nat.toDigits 10 (units % 10 ^ places)
  let zeros := List.replicate (places - fraction.length) '0'
  toString (units / 10 ^ places) ++ "." ++ String.ofList (zeros ++ fraction)

theorem roundedUnits_near (num den scale : Nat) (hden : 0 < den) :
    2 * num * scale ≤ 2 * den * roundedUnits num den scale + den ∧
      2 * den * roundedUnits num den scale ≤ 2 * num * scale + den := by
  have hdiv := Nat.div_add_mod (2 * num * scale + den) (2 * den)
  have hmod := Nat.mod_lt (2 * num * scale + den) (show 0 < 2 * den by omega)
  unfold roundedUnits
  constructor <;> omega

end Text
end TransportStream
