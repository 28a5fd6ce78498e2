import Mathlib.Data.Prod.Lex
import Mathlib.Data.String.Basic
import Mathlib.Data.List.DropRight

/-!
# Instants

`chrono::DateTime<Utc>` and the texts that are written of it. The texts are a parameter.
-/

namespace ClavenarSdk

/-- `chrono::DateTime<Utc>`: seconds since the epoch, and the nanoseconds within the second. In a
leap second they run on to twice as many. -/
@[ext] structure DateTime where
  secs : ℤ
  nanos : ℕ
  valid : nanos < 2 * 10 ^ 9
  deriving DecidableEq

/-- The beginning of a second. -/
def DateTime.ofSecs (secs : ℤ) : DateTime := ⟨secs, 0, by decide⟩

/-- Instants are ordered by second and then by nanosecond. -/
instance : LinearOrder DateTime :=
  LinearOrder.lift' (fun t => toLex (t.secs, t.nanos)) fun t u h => by
    obtain ⟨hsecs, hnanos⟩ := Prod.mk.inj (toLex.injective h)
    exact DateTime.ext hsecs hnanos

/-- An instant is earlier by its second or, within one second, by its nanoseconds. -/
theorem DateTime.lt_iff {t u : DateTime} :
    t < u ↔ t.secs < u.secs ∨ t.secs = u.secs ∧ t.nanos < u.nanos := Prod.Lex.toLex_lt_toLex

/-- What the SDK uses of `chrono`. -/
class Chrono where
  /-- `DateTime::to_rfc3339`. -/
  toRfc3339 : DateTime → String
  /-- `DateTime::to_rfc3339_opts` with whole seconds and a `Z`. -/
  toRfc3339Secs : DateTime → String

export Chrono (toRfc3339 toRfc3339Secs)

end ClavenarSdk
