import Mathlib.Data.List.Basic
import Mathlib.Logic.Equiv.List
import ClavenarSdk.DateTime
import ClavenarSdk.Serde

/-!
# Instants in documents

An instant is written as an RFC 3339 text and read from every such text that denotes it. Both
directions are a parameter.
-/

namespace ClavenarSdk

/-- What `serde` uses of `chrono`. -/
class ChronoSerde where
  /-- The text that an instant is serialized as, an RFC 3339 one. -/
  timestampText : DateTime → String

export ChronoSerde (timestampText)

/-- What `serde` uses of `chrono` to read an instant. -/
class ChronoReader extends ChronoSerde where
  /-- The instant that a text denotes, if it is an RFC 3339 one. -/
  timestampOf : String → Option DateTime

export ChronoReader (timestampOf)

instance [ChronoSerde] : Serialize DateTime := ⟨fun t => .string (timestampText t)⟩

section

variable [ChronoReader]

instance : Deserialize DateTime where
  fromJson
    | .string s =>
      match timestampOf s with
      | some t => .ok t
      | none => .error .invalidValue
    | _ => .error .invalidType

/-- The instant is read from the text that is written of it. -/
def Rereads (t : DateTime) : Prop := timestampOf (timestampText t) = some t

/-- Every instant that is read is read again from the text that is written of it. -/
def RereadsInstants : Prop :=
  ∀ (text : String) (t : DateTime), timestampOf text = some t → Rereads t

/-- An instant is read from the texts that denote it. -/
theorem dateTime_fromJson_iff {j : Json} {t : DateTime} :
    fromJson j = .ok t ↔ ∃ text, j = .string text ∧ timestampOf text = some t := by
  cases j with
  | string text =>
    simp only [fromJson, Json.string.injEq, exists_eq_left']
    cases timestampOf text <;> simp
  | null | bool | number | array | object => simp [fromJson]

/-- An instant that is read from its own text survives serialization. -/
theorem Rereads.roundTrips {t : DateTime} (h : Rereads t) : fromJson (toJson t) = .ok t :=
  dateTime_fromJson_iff.mpr ⟨_, rfl, h⟩

/-- Instants that are read from their own texts differ only if their texts do. -/
theorem Rereads.eq_of_timestampText {t u : DateTime} (ht : Rereads t) (hu : Rereads u)
    (htext : timestampText t = timestampText u) : t = u := by
  unfold Rereads at ht hu
  rw [htext, hu, Option.some.injEq] at ht
  exact ht.symm

/-- An instant of a document is one that is read from its own text. -/
theorem RereadsInstants.rereads (hclock : RereadsInstants) {j : Json} {t : DateTime}
    (hread : fromJson j = .ok t) : Rereads t := by
  obtain ⟨text, -, htext⟩ := dateTime_fromJson_iff.mp hread
  exact hclock text t htext

end

namespace Fixture

/-- The epoch. -/
def epoch : DateTime := .ofSecs 0

/-- The text of the epoch, and for other instants texts that differ from it and each other. -/
@[reducible] def chronoSerde : ChronoSerde where
  timestampText t :=
    if t = epoch then "1970-01-01T00:00:00Z"
    else String.ofList (List.replicate (Encodable.encode (t.secs, t.nanos)) '*')

/-- The same texts with the instants that they are of. -/
@[reducible] def chronoReader : ChronoReader where
  toChronoSerde := chronoSerde
  timestampOf text :=
    if text = "1970-01-01T00:00:00Z" then some epoch
    else
      match (Encodable.decode text.length : Option (ℤ × ℕ)) with
      | some (secs, nanos) => if h : nanos < 2 * 10 ^ 9 then some ⟨secs, nanos, h⟩ else none
      | none => none

section

attribute [local instance] chronoSerde

/-- No two instants have one text. -/
theorem timestampText_injective : Function.Injective (timestampText : DateTime → String) := by
  have hstar : ∀ n, "1970-01-01T00:00:00Z" ≠ String.ofList (List.replicate n '*') := by
    intro n h
    have hmem : '1' ∈ (String.ofList (List.replicate n '*')).toList := by
      rw [← h]
      decide
    rw [String.toList_ofList] at hmem
    exact absurd (List.eq_of_mem_replicate hmem) (by decide)
  intro t u h
  simp only [timestampText] at h
  split_ifs at h with ht hu hu
  · rw [ht, hu]
  · exact absurd h (hstar _)
  · exact absurd h.symm (hstar _)
  · have hlength := congrArg (fun s => s.toList.length) h
    simp only [String.toList_ofList, List.length_replicate, Encodable.encode_inj,
      Prod.mk.injEq] at hlength
    exact DateTime.ext hlength.1 hlength.2

end

section

attribute [local instance] chronoReader

/-- Every instant of the clock is read from its own text. -/
theorem rereads (t : DateTime) : Rereads t := by
  unfold Rereads
  by_cases ht : t = epoch
  · simp [timestampOf, timestampText, ht]
  · have hother : timestampText t ≠ "1970-01-01T00:00:00Z" := fun h =>
      ht (timestampText_injective (h.trans (if_pos rfl).symm))
    have htext : timestampText t =
        String.ofList (List.replicate (Encodable.encode (t.secs, t.nanos)) '*') := if_neg ht
    have hcode : (Encodable.decode (timestampText t).length : Option (ℤ × ℕ)) =
        some (t.secs, t.nanos) := by
      rw [htext, String.length_ofList, List.length_replicate, Encodable.encodek]
    simp only [timestampOf, if_neg hother, hcode, dif_pos t.valid]

/-- The clock reads what it writes. -/
theorem rereadsInstants : RereadsInstants := fun _ t _ => rereads t

end

end Fixture

end ClavenarSdk
