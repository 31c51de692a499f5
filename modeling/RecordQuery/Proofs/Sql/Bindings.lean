import Mathlib.Data.List.Nodup
import RecordQuery.Proofs.Sql.Token

/-!
# Parameters bound by hand

`bind` and `bindNamed` each add one parameter to a statement. A parameter without a name of its own
is called after its place among all parameters, those with names included. So a call of `bind` is
numbered by the calls of `bind` before it only where there were no others
(`positional_names_count_all`). Names never clash, unless those that were given do.
-/

namespace RecordQuery.Statement

/-- A call that binds one more parameter, under a name of its own or not. -/
inductive Binding where
  | positional (v : Value)
  | named (name : String) (v : Value)
  deriving DecidableEq, Repr

namespace Binding

/-- The name that a call gives. -/
def name? : Binding → Option String
  | positional _ => none
  | named name _ => some name

def value : Binding → Value
  | positional v => v
  | named _ v => v

/-- The parameter that a call adds after so many others. -/
def param (b : Binding) (place : Nat) : Param := ⟨b.name?.getD (placeholder place), b.value.bound⟩

end Binding

/-- The statement after one more call. -/
def call (s : Statement) : Binding → Statement
  | .positional v => s.bind v
  | .named name v => s.bindNamed name v

def callAll (s : Statement) (bs : List Binding) : Statement := bs.foldl call s

/-- The names that calls give. -/
def givenNames (bs : List Binding) : List String := bs.filterMap Binding.name?

/-- The number of calls that give no name. -/
def positions (bs : List Binding) : Nat := bs.countP (·.name?.isNone)

def names (s : Statement) : List String := s.params.map (·.name)

/-- No parameter is called like one that is bound later by its place. -/
def Unclaimed (s : Statement) : Prop := ∀ n, placeholder n ∈ s.names → n < s.params.length

variable {s : Statement} {b : Binding} {bs : List Binding}

theorem call_eq (s : Statement) (b : Binding) :
    s.call b = { s with params := s.params ++ [b.param s.params.length] } := by
  cases b <;> rfl

/-- Every call adds a parameter behind those that are there. -/
theorem callAll_eq (s : Statement) (bs : List Binding) :
    s.callAll bs = { s with
      params := s.params ++ (bs.zipIdx s.params.length).map fun (b, place) => b.param place } := by
  induction bs generalizing s with
  | nil => simp [callAll]
  | cons b bs ih =>
    rw [callAll, List.foldl_cons, ← callAll, ih, call_eq]
    simp

theorem getElem?_params_callAll {before after : List Binding} :
    (s.callAll (before ++ b :: after)).params[s.params.length + before.length]?
      = some (b.param (s.params.length + before.length)) := by
  rw [callAll_eq]
  simp

theorem positions_le_length (bs : List Binding) : positions bs ≤ bs.length := List.countP_le_length

/-- Calls without names are all there are just when as many as there are calls. -/
theorem positions_eq_length_iff : positions bs = bs.length ↔ givenNames bs = [] := by
  rw [positions, List.countP_eq_length, givenNames, List.filterMap_eq_nil_iff]
  simp only [Option.isNone_iff_eq_none]

/-! ## Names -/

theorem names_call (s : Statement) (b : Binding) :
    (s.call b).names = s.names ++ [b.name?.getD (placeholder s.params.length)] := by
  rw [call_eq, names, List.map_append]
  rfl

/-- A statement stays unclaimed when a call gives no name that a place has. -/
theorem Unclaimed.call (h : s.Unclaimed) (plain : ∀ name ∈ b.name?, ∀ n, name ≠ placeholder n) :
    (s.call b).Unclaimed := by
  intro n hn
  have length : (s.call b).params.length = s.params.length + 1 := by simp [call_eq]
  rw [length]
  rw [names_call, List.mem_append, List.mem_singleton] at hn
  obtain claimed | last := hn
  · have := h n claimed
    omega
  · cases given : b.name? with
    | none =>
      rw [given, Option.getD_none] at last
      have := Sql.placeholder_injective last
      omega
    | some name =>
      rw [given, Option.getD_some] at last
      exact absurd last.symm (plain name given n)

theorem unclaimed_of_empty (h : s.params = []) : s.Unclaimed := by
  intro n claimed
  rw [names, h] at claimed
  cases claimed

theorem unclaimed_ofPieces (ps : List Sql.Piece) (bound : List Value) :
    (ofPieces ps bound).Unclaimed := by
  intro n claimed
  rw [names, ofPieces, Param.names_number] at claimed
  obtain ⟨i, below, same⟩ := List.mem_map.mp claimed
  rw [Sql.placeholder_injective same] at below
  simpa [ofPieces, Param.number] using below

theorem Unclaimed.callAll (h : s.Unclaimed)
    (plain : ∀ name ∈ givenNames bs, ∀ n, name ≠ placeholder n) : (s.callAll bs).Unclaimed := by
  induction bs generalizing s with
  | nil => exact h
  | cons b bs ih =>
    refine ih (h.call fun name given => plain name ?_) fun name given => plain name ?_
    · exact List.mem_filterMap.mpr ⟨b, List.mem_cons_self, given⟩
    · obtain ⟨b', mem, named⟩ := List.mem_filterMap.mp given
      exact List.mem_filterMap.mpr ⟨b', List.mem_cons_of_mem _ mem, named⟩

/-- Names are apart exactly if those are that the statement had and the calls give. -/
theorem nodup_names_callAll_iff (h : s.Unclaimed)
    (plain : ∀ name ∈ givenNames bs, ∀ n, name ≠ placeholder n) :
    (s.callAll bs).names.Nodup ↔ (s.names ++ givenNames bs).Nodup := by
  induction bs generalizing s with
  | nil =>
    rw [givenNames, List.filterMap_nil, List.append_nil]
    rfl
  | cons b bs ih =>
    cases b with
    | positional v =>
      have later := ih (h.call (b := .positional v) (by simp [Binding.name?])) plain
      rw [names_call, List.append_assoc] at later
      refine later.trans ?_
      -- the name of the place is new, to the statement and to the calls
      have unclaimed : placeholder s.params.length ∉ s.names := fun mem =>
        Nat.lt_irrefl _ (h _ mem)
      have ungiven : placeholder s.params.length ∉ givenNames bs := fun mem => plain _ mem _ rfl
      have fresh : placeholder s.params.length ∉ s.names ++ givenNames bs := by
        simp [unclaimed, ungiven]
      exact List.nodup_middle.trans (List.nodup_cons.trans (and_iff_right fresh))
    | named name v =>
      have plainly := List.forall_mem_cons.mp plain
      have later := ih (h.call (b := .named name v) (by simpa [Binding.name?] using plainly.1))
        plainly.2
      rw [names_call, List.append_assoc] at later
      exact later

/-- The call of `bind` after some others adds a parameter called after its place, and that is the
number of calls of `bind` before it exactly if the statement began without parameters and none of
the calls before gave a name. The names of a statement are apart exactly if those are that it had
and the calls give, unless one is called like a place that comes later: no new statement has such a
name, nor a compiled one, and no call adds one that does not give it. -/
theorem positional_names_count_all (s : Statement) (bs : List Binding) :
    (∀ before v after, bs = before ++ .positional v :: after →
      let place := s.params.length + before.length
      (s.callAll bs).params[place]? = some ⟨placeholder place, v.bound⟩ ∧
      (placeholder place = placeholder (positions before) ↔
        s.params = [] ∧ givenNames before = [])) ∧
    (s.Unclaimed → (∀ name ∈ givenNames bs, ∀ n, name ≠ placeholder n) →
      (s.callAll bs).Unclaimed ∧
      ((s.callAll bs).names.Nodup ↔ (s.names ++ givenNames bs).Nodup)) ∧
    (s.params = [] → s.Unclaimed) ∧
    (∀ ps bound, s = ofPieces ps bound → s.Unclaimed) := by
  refine ⟨?numbered, fun h plain => ⟨h.callAll plain, nodup_names_callAll_iff h plain⟩,
    unclaimed_of_empty, ?compiled⟩
  case numbered =>
    rintro before v after rfl place
    refine ⟨getElem?_params_callAll, ?_⟩
    have counted : placeholder place = placeholder (positions before) ↔
        place = positions before :=
      ⟨Sql.placeholder_injective, congrArg placeholder⟩
    rw [counted, ← positions_eq_length_iff, ← List.length_eq_zero_iff]
    have := positions_le_length before
    omega
  case compiled =>
    rintro ps bound rfl
    exact unclaimed_ofPieces ps bound

/-- A statement with a parameter of its own between two that are bound by their places. -/
def mixedCalls : List Binding :=
  [.positional (.long 7), .named "@id" (.long 4), .positional (.bytes [])]

theorem positional_names_count_all_mixed :
    (Statement.mk "SELECT @p0, @id, @p1" []).Unclaimed ∧
    (∀ name ∈ givenNames mixedCalls, ∀ n, name ≠ placeholder n) ∧
    let s := (Statement.mk "SELECT @p0, @id, @p1" []).callAll mixedCalls
    s.params[0]? = some ⟨placeholder 0, .long 7⟩ ∧ s.params[2]? = some ⟨placeholder 2, .null⟩ ∧
    placeholder 2 ≠ placeholder 1 ∧ s.names.Nodup := by
  obtain ⟨numbered, apart, empty, _⟩ :=
    positional_names_count_all (.mk "SELECT @p0, @id, @p1" []) mixedCalls
  have plain : ∀ name ∈ givenNames mixedCalls, ∀ n, name ≠ placeholder n := by
    intro name given n same
    rw [List.mem_singleton.mp given] at same
    have letters : ['@', 'i', 'd'] = (placeholder n).toList := congrArg String.toList same
    rw [Sql.toList_placeholder] at letters
    simp at letters
  have first := numbered [] (.long 7) _ rfl
  have last := numbered [.positional (.long 7), .named "@id" (.long 4)] (.bytes []) [] rfl
  exact ⟨empty rfl, plain, first.1, last.1, fun same => absurd (last.2.mp same).2 (by decide),
    (apart (empty rfl) plain).2.mpr (by decide)⟩

/-- After a named parameter the first one bound by its place is not `@p0`. -/
theorem named_parameter_shifts_places :
    (((Statement.mk "SELECT @id, @p0" []).bindNamed "@id" (.long 4)).bind (.long 7)).params
      = [⟨"@id", .long 4⟩, ⟨"@p1", .long 7⟩] :=
  rfl

end RecordQuery.Statement
