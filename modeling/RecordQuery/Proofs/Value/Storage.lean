import RecordQuery.Proofs.Calendar.Offset
import RecordQuery.Proofs.Number.Binary
import RecordQuery.Proofs.Value.Text
import RecordQuery.Scalar
import RecordQuery.Sqlite
import RecordQuery.Value.Binding

/-!
# Values that the storage gives back

A value passes from its type to a column value, to what a parameter binds of it, to one of the five
storage classes, and back. `Sqlite.kept` is the part of that way that no type takes part in, and
`FieldType.ofValue_kept` says that a value that is `FieldType.Storable` comes back as it was. What
is not storable is lost at one stage: a number that is not one and a year out of range are kept as
null, the text of a difference has no seconds, and that of a leap second before the end of its
minute is the text of the second after.
-/

namespace RecordQuery

open Number Calendar Sqlite

namespace Sqlite

/-- What a column holds of a value that was bound to a parameter and stored. -/
def kept (v : Value) : Value := (Stored.ofValue v.bound).toValue

theorem kept_double {x : Double} (h : x.isNaN = false) : kept (.double x) = .double x := by
  simp [kept, Value.bound, Stored.ofValue, Stored.ofDouble, Stored.toValue, h]

/-- A single number is kept as the double one that it equals. -/
theorem kept_single {x : Single} (h : x.datum ≠ .nan) :
    kept (.single x) = .double (Double.ofSingle x) := by
  have number : (Double.ofSingle x).isNaN = false := by
    cases hx : x.datum with
    | nan => exact absurd hx h
    | infinite neg => rw [Double.isNaN, Double.datum_ofSingle_infinite hx]; rfl
    | finite neg m e =>
      obtain ⟨k, p, wide, -⟩ := Double.datum_ofSingle_finite hx
      rw [Double.isNaN, wide]
      rfl
  exact kept_double number

theorem kept_timestamp {t : Timestamp} (h : inStorageRange t = true) :
    kept (.timestamp t) = .text t.text := by
  simp [kept, Value.bound, Stored.ofValue, Stored.toValue, h]

theorem kept_text (s : String) : kept (.text s) = .text s := rfl

theorem kept_uuid (u : Uuid) : kept (.uuid u) = .text u.text := rfl

end Sqlite

namespace Scalar

/-- The values of a type that the storage keeps apart from one another. A type of any value is not
among them, since a column does not say what type its value had, nor is a type of variants, whose
codes are values of any type. -/
def Storable : (t : Scalar) → t.Carrier → Prop
  | bool, _ | int, _ | long, _ | text, _ | bytes, _ | uuid, _ => True
  | single, x => x.datum ≠ .nan
  | double, x => x.isNaN = false
  | timestamp, t => inStorageRange t = true ∧ t.time.LeapLast
  | offset, o => o.seconds % 60 = 0
  | any, _ | choice _, _ => False

theorem ofValue_of_present {t : Scalar} {v : Value} (h : v.isNull = false) :
    t.ofValue v = t.ofPresent v :=
  if_neg (by simp [h])

theorem int?_kept (n : Int32) : (kept (.int n)).int? = some n := by
  have range : Int32.minValue.toInt ≤ n.toInt ∧ n.toInt ≤ Int32.maxValue.toInt :=
    ⟨n.minValue_le_toInt, n.toInt_le⟩
  change int32? n.toInt64.toInt = some n
  rw [Int32.toInt_toInt64, int32?, if_pos range, Int32.ofInt_toInt]

/-- What is kept of a value is read as the value, and is null only of an empty sequence. -/
theorem read_kept {t : Scalar} {x : t.Carrier} (h : t.Storable x) :
    t.ofValue (kept (t.toValue x)) = .ok x ∧
      ((kept (t.toValue x)).isNull = true → t.toValue x = .bytes []) := by
  cases t with
  | bool => cases x <;> exact ⟨rfl, nofun⟩
  | int =>
    rw [toValue, ofValue_of_present rfl, ofPresent, int?_kept]
    exact ⟨rfl, nofun⟩
  | long => exact ⟨rfl, nofun⟩
  | single =>
    rw [toValue, kept_single h, ofValue_of_present rfl, ofPresent, Value.single?,
      Single.ofDouble_ofSingle h]
    exact ⟨rfl, nofun⟩
  | double =>
    rw [toValue, kept_double h]
    exact ⟨rfl, nofun⟩
  | text => exact ⟨rfl, nofun⟩
  | bytes => cases x with
    | nil => exact ⟨rfl, fun _ => rfl⟩
    | cons b bs => exact ⟨rfl, nofun⟩
  | timestamp =>
    rw [toValue, kept_timestamp h.1, ofValue_of_present rfl, ofPresent, Value.timestamp?,
      Timestamp.read?_text, Timestamp.shown_eq_self_iff.mpr h.2]
    exact ⟨rfl, nofun⟩
  | uuid =>
    rw [toValue, kept_uuid, ofValue_of_present rfl, ofPresent, Value.uuid?, Uuid.read?_text]
    exact ⟨rfl, nofun⟩
  | offset =>
    rw [toValue, kept_text, ofValue_of_present rfl, ofPresent, offsetOfValue, Offset.read?_text h]
    exact ⟨rfl, nofun⟩
  | any => exact h.elim
  | choice e => exact h.elim

end Scalar

namespace FieldType

/-- The values that the storage keeps apart from one another. An empty sequence that is present
is kept as an absent one. -/
def Storable : (t : FieldType) → t.Carrier → Prop
  | required t, x => t.Storable x
  | optional _, none => True
  | optional t, some x => t.Storable x ∧ t.toValue x ≠ .bytes []

/-- A value that can be stored is read from what the storage keeps of it. -/
theorem ofValue_kept {t : FieldType} {x : t.Carrier} (h : t.Storable x) :
    t.ofValue (kept (t.toValue x)) = .ok x := by
  cases t with
  | required t => exact (Scalar.read_kept h).1
  | optional t => cases x with
    | none => rfl
    | some x =>
      obtain ⟨same, null⟩ := Scalar.read_kept h.1
      have present : ¬(kept (t.toValue x)).isNull = true := fun hn => h.2 (null hn)
      change (if (kept (t.toValue x)).isNull then _ else _) = _
      rw [if_neg present]
      exact congrArg (Except.map some) same

def halfHourWest : Offset := ⟨-1800, by decide⟩

/-- The last leap second, the negative single number next to zero, a difference whose hours are
zero, and the empty sequence. -/
theorem ofValue_kept_boundaries :
    ((inStorageRange lastLeapSecond = true ∧ lastLeapSecond.time.LeapLast) ∧
      ofValue (optional .timestamp) (kept (toValue (optional .timestamp) (some lastLeapSecond)))
        = .ok (some lastLeapSecond)) ∧
    ((⟨0x80000001⟩ : Single).datum ≠ .nan ∧ ofValue (required .single)
      (kept (toValue (required .single) ⟨0x80000001⟩)) = .ok ⟨0x80000001⟩) ∧
    (halfHourWest.seconds % 60 = 0 ∧ ofValue (required .offset)
      (kept (toValue (required .offset) halfHourWest)) = .ok halfHourWest) ∧
    ofValue (required .bytes) (kept (toValue (required .bytes) [])) = .ok [] := by
  have leap : inStorageRange lastLeapSecond = true ∧ lastLeapSecond.time.LeapLast := by decide
  have least : (⟨0x80000001⟩ : Single).datum ≠ .nan := by decide
  have whole : halfHourWest.seconds % 60 = 0 := by decide
  exact ⟨⟨leap, ofValue_kept ⟨leap, nofun⟩⟩, ⟨least, ofValue_kept least⟩,
    ⟨whole, ofValue_kept whole⟩, ofValue_kept trivial⟩

/-- A leap second before the end of its minute comes back as the second after. -/
theorem midMinute_not_kept :
    inStorageRange midMinute = true ∧
    ofValue (required .timestamp) (kept (toValue (required .timestamp) midMinute))
      = .ok midMinute.shown ∧
    ¬∀ t : Timestamp, inStorageRange t = true →
      ofValue (required .timestamp) (kept (toValue (required .timestamp) t)) = .ok t := by
  have stored : inStorageRange midMinute = true := by decide
  have read : ofValue (required .timestamp) (kept (toValue (required .timestamp) midMinute))
      = .ok midMinute.shown := by
    rw [toValue, Scalar.toValue, kept_timestamp stored, ofValue, Scalar.ofValue_of_present rfl,
      Scalar.ofPresent, Value.timestamp?, Timestamp.read?_text]
    rfl
  refine ⟨stored, read, fun claimed => midMinute_shown_ne ?_⟩
  have same := read.symm.trans (claimed midMinute stored)
  exact Except.ok.inj same

end FieldType

end RecordQuery
