import Mathlib.Data.List.Infix
import RecordQuery.Text.Pattern

/-!
# Runs of a pattern

A pattern of letters alone has finitely many spellings, and running it tries these in turn
(`run_literal`). Of any other pattern it is known that a run ends at a place further on
(`exists_of_run`) and that every match has one of certain texts in it, its keys (`key_of_run`). The
leftmost match is found by passing over the places where nothing matches (`search_skip`), and runs
of a class are passed over in the same way.
-/

namespace RecordQuery.Text

/-- A text with its letters folded. -/
def folded (cs : List Char) : List Char := cs.map fold

@[simp] theorem folded_nil : folded [] = [] := rfl

@[simp] theorem folded_cons (c : Char) (cs : List Char) :
    folded (c :: cs) = fold c :: folded cs := rfl

@[simp] theorem folded_append (xs ys : List Char) : folded (xs ++ ys) = folded xs ++ folded ys :=
  List.map_append

@[simp] theorem folded_drop (cs : List Char) (n : Nat) : folded (cs.drop n) = (folded cs).drop n :=
  List.map_drop

@[simp] theorem length_folded (cs : List Char) : (folded cs).length = cs.length := List.length_map _

theorem append_prefix_iff {v w cs : List Char} :
    v ++ w <+: cs ↔ v <+: cs ∧ w <+: cs.drop v.length := by
  constructor
  · rintro ⟨rest, rfl⟩
    rw [List.append_assoc, List.drop_left]
    exact ⟨List.prefix_append .., List.prefix_append ..⟩
  · rintro ⟨⟨rest, rfl⟩, h⟩
    rw [List.drop_left] at h
    exact (List.prefix_append_right_inj v).mpr h

namespace Pattern

/-! ## Places -/

namespace Place

/-- The place some characters further on. -/
def skip (here : Place) (n : Nat) : Place :=
  ⟨(here.rest.take n).getLast?.or here.before, here.rest.drop n⟩

@[simp] theorem skip_zero (here : Place) : here.skip 0 = here := by simp [skip]

@[simp] theorem rest_skip (here : Place) (n : Nat) : (here.skip n).rest = here.rest.drop n := rfl

theorem skip_skip (here : Place) (m n : Nat) : (here.skip m).skip n = here.skip (m + n) := by
  simp [skip, List.take_add, List.getLast?_append, Option.or_assoc]

theorem skip_append (before : Option Char) (xs ys : List Char) :
    (mk before (xs ++ ys)).skip xs.length = ⟨xs.getLast?.or before, ys⟩ := by simp [skip]

theorem skip_cons (before : Option Char) (c : Char) (cs : List Char) (n : Nat) :
    (mk before (c :: cs)).skip (n + 1) = (mk (some c) cs).skip n := by
  rw [Nat.add_comm, ← skip_skip]
  rfl

/-- The place after a text that comes next, in letters of either case. -/
def past? (here : Place) (w : List Char) : Option Place :=
  if w <+: folded here.rest then some (here.skip w.length) else none

@[simp] theorem past?_nil (here : Place) : here.past? [] = some here := by simp [past?]

theorem past?_append (here : Place) (v w : List Char) :
    here.past? (v ++ w) = (here.past? v).bind (·.past? w) := by
  simp only [past?, append_prefix_iff]
  by_cases first : v <+: folded here.rest
  · by_cases second : w <+: (folded here.rest).drop v.length <;> simp [first, second, skip_skip]
  · simp [first]

theorem past?_eq_some_iff {here there : Place} {w : List Char} :
    here.past? w = some there ↔ w <+: folded here.rest ∧ here.skip w.length = there := by
  rw [past?, Option.ite_none_right_eq_some, Option.some.injEq]

end Place

/-! ## Patterns of letters -/

/-- The pattern has letters, alternatives and optional parts only. -/
def isLiteral : Pattern → Bool
  | empty | one (.letter _) => true
  | seq p q | alt p q => p.isLiteral && q.isLiteral
  | opt p => p.isLiteral
  | _ => false

/-- The texts that a pattern of letters matches, in the order they are tried in. -/
def spellings : Pattern → List (List Char)
  | empty => [[]]
  | one (.letter c) => [[fold c]]
  | seq p q => p.spellings.flatMap fun v => q.spellings.map (v ++ ·)
  | alt p q => p.spellings ++ q.spellings
  | opt p => p.spellings ++ [[]]
  | _ => []

/-- Going on after one of some texts, and from there after one of others. -/
theorem findSome?_past? (here : Place) (vs ws : List (List Char)) (next : Place → Option β) :
    (vs.findSome? fun v => (here.past? v).bind fun mid => ws.findSome? fun w =>
      (mid.past? w).bind next)
      = (vs.flatMap fun v => ws.map (v ++ ·)).findSome? fun u => (here.past? u).bind next := by
  induction vs with
  | nil => rfl
  | cons v vs ih =>
    have first : ((here.past? v).bind fun mid => ws.findSome? fun w => (mid.past? w).bind next)
        = (ws.map (v ++ ·)).findSome? fun u => (here.past? u).bind next := by
      rw [List.findSome?_map]
      simp only [Function.comp_def, Place.past?_append, Option.bind_assoc]
      cases here.past? v with
      | none => exact (List.findSome?_eq_none_iff.mpr fun _ _ => rfl).symm
      | some mid => rfl
    rw [List.flatMap_cons, List.findSome?_append, ← ih, ← first, List.findSome?_cons]
    cases (here.past? v).bind fun mid => ws.findSome? fun w => (mid.past? w).bind next <;> rfl

theorem run_literal {p : Pattern} (h : p.isLiteral = true) (here : Place)
    (got : Option (List Char)) (next : Next) :
    p.run here got next = p.spellings.findSome? fun w => (here.past? w).bind (next · got) := by
  induction p generalizing here next with
  | empty => simp [run, spellings]
  | one k =>
    cases k with
    | letter d =>
      obtain ⟨before, _ | ⟨c, cs⟩⟩ := here
      · simp [run, spellings, Place.past?]
      · by_cases same : fold c = fold d
        · simp [run, spellings, Place.past?, CharClass.mem, Place.skip, same]
        · have other : ¬fold d = fold c := fun h => same h.symm
          simp [run, spellings, Place.past?, CharClass.mem, same, other]
    | blank => simp [isLiteral] at h
    | oneOf cs => simp [isLiteral] at h
    | noneOf cs => simp [isLiteral] at h
  | seq p q ihp ihq =>
    simp only [isLiteral, Bool.and_eq_true] at h
    rw [run, ihp h.1, spellings, ← findSome?_past?]
    simp only [ihq h.2]
  | alt p q ihp ihq =>
    simp only [isLiteral, Bool.and_eq_true] at h
    rw [run, ihp h.1, ihq h.2, spellings, List.findSome?_append, Option.orElse_eq_or]
  | opt p ih =>
    rw [run, ih h, spellings, List.findSome?_append, Option.orElse_eq_or]
    simp
  | boundary => simp [isLiteral] at h
  | greedy k => simp [isLiteral] at h
  | lazy k => simp [isLiteral] at h
  | capture p => simp [isLiteral] at h

/-! ## Where runs end -/

theorem exists_of_runGreedy {k : CharClass} {got : Option (List Char)} {next : Next}
    {before : Option Char} {cs : List Char} {r : Option (List Char)}
    (h : runGreedy k got next before cs = some r) :
    ∃ n, next ((Place.mk before cs).skip n) got = some r := by
  induction cs generalizing before with
  | nil => exact ⟨0, h⟩
  | cons c cs ih =>
    have here (h : next ⟨before, c :: cs⟩ got = some r) :
        ∃ n, next ((Place.mk before (c :: cs)).skip n) got = some r := ⟨0, by simpa using h⟩
    rw [runGreedy] at h
    split at h
    · rw [Option.orElse_eq_or, Option.or_eq_some_iff] at h
      obtain further | ⟨-, now⟩ := h
      · obtain ⟨n, hn⟩ := ih further
        exact ⟨n + 1, by rwa [Place.skip_cons]⟩
      · exact here now
    · exact here h

theorem exists_of_runLazy {k : CharClass} {got : Option (List Char)} {next : Next}
    {before : Option Char} {cs : List Char} {r : Option (List Char)}
    (h : runLazy k got next before cs = some r) :
    ∃ n, next ((Place.mk before cs).skip n) got = some r := by
  induction cs generalizing before with
  | nil => exact ⟨0, h⟩
  | cons c cs ih =>
    rw [runLazy, Option.orElse_eq_or, Option.or_eq_some_iff] at h
    obtain now | ⟨-, further⟩ := h
    · exact ⟨0, by simpa using now⟩
    · split at further
      · obtain ⟨n, hn⟩ := ih further
        exact ⟨n + 1, by rwa [Place.skip_cons]⟩
      · cases further

/-- A run that succeeds has gone on from a place further on. -/
theorem exists_of_run {p : Pattern} {here : Place} {got : Option (List Char)} {next : Next}
    {r : Option (List Char)} (h : p.run here got next = some r) :
    ∃ n caught, next (here.skip n) caught = some r := by
  have stays {here : Place} {got : Option (List Char)} {next : Next} (h : next here got = some r) :
      ∃ n caught, next (here.skip n) caught = some r := ⟨0, got, by simpa using h⟩
  induction p generalizing here got next with
  | empty => exact stays h
  | one k =>
    obtain ⟨before, _ | ⟨c, cs⟩⟩ := here
    · cases h
    · simp only [run, Option.ite_none_right_eq_some] at h
      exact ⟨1, got, h.2⟩
  | boundary =>
    simp only [run, Option.ite_none_right_eq_some] at h
    exact stays h.2
  | seq p q ihp ihq =>
    obtain ⟨m, caught, mid⟩ := ihp h
    obtain ⟨n, caught, there⟩ := ihq mid
    exact ⟨m + n, caught, by rwa [← Place.skip_skip]⟩
  | alt p q ihp ihq =>
    rw [run, Option.orElse_eq_or, Option.or_eq_some_iff] at h
    obtain first | ⟨-, second⟩ := h
    · exact ihp first
    · exact ihq second
  | opt p ih =>
    rw [run, Option.orElse_eq_or, Option.or_eq_some_iff] at h
    obtain taken | ⟨-, left⟩ := h
    · exact ih taken
    · exact stays left
  | greedy k =>
    obtain ⟨n, hn⟩ := exists_of_runGreedy h
    exact ⟨n, got, hn⟩
  | lazy k =>
    obtain ⟨n, hn⟩ := exists_of_runLazy h
    exact ⟨n, got, hn⟩
  | capture p ih =>
    obtain ⟨n, _, hn⟩ := ih h
    exact ⟨n, _, hn⟩

/-! ## Keys -/

/-- Texts of which every match has one in it, letters folded. -/
def keys (p : Pattern) : List (List Char) :=
  if p.isLiteral then p.spellings
  else match p with
    | seq p q => if p.keys.contains [] then q.keys else p.keys
    | _ => [[]]

theorem key_of_literal {p : Pattern} (literal : p.isLiteral = true) {here : Place}
    {got : Option (List Char)} {next : Next} {r : Option (List Char)}
    (h : p.run here got next = some r) : ∃ w ∈ p.spellings, w <+: folded here.rest := by
  rw [run_literal literal] at h
  obtain ⟨w, mem, hw⟩ := List.exists_of_findSome?_eq_some h
  obtain ⟨there, past, -⟩ := Option.bind_eq_some_iff.mp hw
  exact ⟨w, mem, (Place.past?_eq_some_iff.mp past).1⟩

theorem key_of_run {p : Pattern} {here : Place} {got : Option (List Char)} {next : Next}
    {r : Option (List Char)} (h : p.run here got next = some r) :
    ∃ w ∈ p.keys, w <:+: folded here.rest := by
  fun_induction keys p generalizing here got next with
  | case1 p literal =>
    obtain ⟨w, mem, start⟩ := key_of_literal literal h
    exact ⟨w, mem, start.isInfix⟩
  | case2 p q _ _ ihp ihq =>
    -- a key of the first part may be empty, so one of the second is looked for further on
    obtain ⟨n, caught, there⟩ := exists_of_run (p := p) h
    obtain ⟨w, mem, inside⟩ := ihq there
    rw [Place.rest_skip, folded_drop] at inside
    exact ⟨w, mem, inside.trans (List.drop_suffix n _).isInfix⟩
  | case3 p q _ _ ihp => exact ihp h
  | case4 p => exact ⟨[], List.mem_singleton.mpr rfl, List.nil_infix⟩

/-! ## Searches -/

theorem search_of_match? {p : Pattern} {before : Option Char} {cs : List Char}
    {r : Option (List Char)} (h : p.match? ⟨before, cs⟩ = some r) :
    p.search before cs = some r := by
  cases cs with
  | nil => exact h
  | cons c cs => rw [search, h, Option.orElse_some]

/-- A search starts after the places where nothing matches. -/
theorem search_skip {p : Pattern} {before : Option Char} {xs ys : List Char}
    (h : ∀ n < xs.length, p.match? ((Place.mk before (xs ++ ys)).skip n) = none) :
    p.search before (xs ++ ys) = p.search (xs.getLast?.or before) ys := by
  induction xs generalizing before with
  | nil => rfl
  | cons x xs ih =>
    have first : p.match? ⟨before, x :: (xs ++ ys)⟩ = none := h 0 (Nat.zero_lt_succ _)
    have others (n : Nat) (hn : n < xs.length) :
        p.match? ((Place.mk (some x) (xs ++ ys)).skip n) = none := by
      rw [← Place.skip_cons before]
      exact h (n + 1) (Nat.succ_lt_succ hn)
    rw [List.cons_append, search, first, Option.orElse_none, ih others, List.getLast?_cons]
    cases xs.getLast? <;> rfl

theorem exists_of_search {p : Pattern} {before : Option Char} {cs : List Char}
    {r : Option (List Char)} (h : p.search before cs = some r) :
    ∃ n ≤ cs.length, p.match? ((Place.mk before cs).skip n) = some r := by
  induction cs generalizing before with
  | nil => exact ⟨0, Nat.le_refl _, h⟩
  | cons c cs ih =>
    rw [search, Option.orElse_eq_or, Option.or_eq_some_iff] at h
    obtain now | ⟨-, further⟩ := h
    · exact ⟨0, Nat.zero_le _, by simpa using now⟩
    · obtain ⟨n, hn, matched⟩ := ih further
      exact ⟨n + 1, Nat.succ_le_succ hn, by rwa [Place.skip_cons]⟩

theorem search_isSome_iff {p : Pattern} {before : Option Char} {cs : List Char} :
    (p.search before cs).isSome ↔
      ∃ n ≤ cs.length, (p.match? ((Place.mk before cs).skip n)).isSome := by
  constructor
  · intro h
    obtain ⟨r, found⟩ := Option.isSome_iff_exists.mp h
    obtain ⟨n, hn, matched⟩ := exists_of_search found
    exact ⟨n, hn, Option.isSome_iff_exists.mpr ⟨r, matched⟩⟩
  · rintro ⟨n, hn, h⟩
    induction cs generalizing before n with
    | nil =>
      rw [Nat.le_zero.mp hn, Place.skip_zero] at h
      exact h
    | cons c cs ih =>
      rw [search, Option.orElse_eq_or, Option.isSome_or, Bool.or_eq_true]
      cases n with
      | zero => exact .inl (by simpa using h)
      | succ n =>
        rw [Place.skip_cons] at h
        exact .inr (ih n (Nat.le_of_succ_le_succ hn) h)

theorem occursIn_iff {p : Pattern} {text : String} :
    p.occursIn text = true ↔
      ∃ n ≤ text.toList.length, (p.match? ((Place.start text.toList).skip n)).isSome := by
  rw [occursIn, find?, Option.isSome_map, search_isSome_iff]
  rfl

/-- A pattern is not found in a text that has none of its keys. -/
theorem find?_eq_none {p : Pattern} {text : String}
    (h : ∀ w ∈ p.keys, ¬w <:+: folded text.toList) : p.find? text = none := by
  rw [find?, Option.map_eq_none_iff, Option.eq_none_iff_forall_ne_some]
  intro r found
  obtain ⟨n, -, matched⟩ := exists_of_search found
  obtain ⟨w, mem, inside⟩ := key_of_run matched
  rw [Place.rest_skip, folded_drop] at inside
  exact h w mem (inside.trans (List.drop_suffix n _).isInfix)

/-! ## Parts of a pattern -/

theorem run_empty (here : Place) (got : Option (List Char)) (next : Next) :
    empty.run here got next = next here got := rfl

theorem run_seq (p q : Pattern) (here : Place) (got : Option (List Char)) (next : Next) :
    (seq p q).run here got next = p.run here got fun there caught => q.run there caught next := rfl

/-- An optional part that can be taken is taken. -/
theorem run_opt {p : Pattern} {here : Place} {got r : Option (List Char)} {next : Next}
    (h : p.run here got next = some r) : (opt p).run here got next = some r := by
  rw [run, h, Option.orElse_some]

/-! ## Runs of a class -/

section

variable {k : CharClass} {got : Option (List Char)} {next : Next} {before : Option Char}
  {xs ys : List Char} {r : Option (List Char)}

theorem run_one_cons {c : Char} (h : k.mem c = true) (h' : next ⟨some c, ys⟩ got = some r) :
    (one k).run ⟨before, c :: ys⟩ got next = some r := by
  rw [← h']
  exact if_pos h

/-- A greedy run takes all characters of the class, if it can go on from there. -/
theorem run_greedy_append (all : ∀ c ∈ xs, k.mem c = true) (stop : ∀ c ∈ ys.head?, k.mem c = false)
    (h : next ⟨xs.getLast?.or before, ys⟩ got = some r) :
    (greedy k).run ⟨before, xs ++ ys⟩ got next = some r := by
  rw [run]
  induction xs generalizing before with
  | nil =>
    cases ys with
    | nil => exact h
    | cons y ys =>
      rw [List.nil_append, runGreedy, stop y rfl]
      exact h
  | cons x xs ih =>
    have further : runGreedy k got next (some x) (xs ++ ys) = some r := by
      refine ih (fun c hc => all c (List.mem_cons_of_mem x hc)) ?_
      rw [List.getLast?_cons] at h
      cases last : xs.getLast? <;> rwa [last] at h
    rw [List.cons_append, runGreedy, if_pos (all x List.mem_cons_self), further, Option.orElse_some]

/-- A captured greedy run gives the characters of the class. -/
theorem run_capture_greedy (all : ∀ c ∈ xs, k.mem c = true)
    (stop : ∀ c ∈ ys.head?, k.mem c = false)
    (h : next ⟨xs.getLast?.or before, ys⟩ (some xs) = some r) :
    (capture (greedy k)).run ⟨before, xs ++ ys⟩ got next = some r := by
  refine run_greedy_append all stop ?_
  rw [List.length_append, Nat.add_sub_cancel, List.take_left]
  exact h

/-- A lazy run takes characters of the class as long as it cannot go on. -/
theorem run_lazy_append (all : ∀ c ∈ xs, k.mem c = true)
    (early : ∀ n < xs.length, next ((Place.mk before (xs ++ ys)).skip n) got = none)
    (h : next ⟨xs.getLast?.or before, ys⟩ got = some r) :
    (lazy k).run ⟨before, xs ++ ys⟩ got next = some r := by
  rw [run]
  induction xs generalizing before with
  | nil =>
    cases ys with
    | nil => exact h
    | cons y ys =>
      have now : next ⟨before, y :: ys⟩ got = some r := h
      rw [List.nil_append, runLazy, now, Option.orElse_some]
  | cons x xs ih =>
    have first : next ⟨before, x :: (xs ++ ys)⟩ got = none := early 0 (Nat.zero_lt_succ _)
    have others (n : Nat) (hn : n < xs.length) :
        next ((Place.mk (some x) (xs ++ ys)).skip n) got = none := by
      rw [← Place.skip_cons before]
      exact early (n + 1) (Nat.succ_lt_succ hn)
    have further : runLazy k got next (some x) (xs ++ ys) = some r := by
      refine ih (fun c hc => all c (List.mem_cons_of_mem x hc)) others ?_
      rw [List.getLast?_cons] at h
      cases last : xs.getLast? <;> rwa [last] at h
    rw [List.cons_append, runLazy, first, Option.orElse_none, if_pos (all x List.mem_cons_self),
      further]

end

/-! ## Words at a boundary -/

section

variable {words q : Pattern} {here there : Place} {got r : Option (List Char)} {next : Next}

/-- A pattern that begins with words goes on after one of their spellings. -/
theorem spelled_of_run (literal : words.isLiteral = true)
    (h : (seq boundary (seq words q)).run here got next = some r) :
    here.atBoundary = true ∧ ∃ w ∈ words.spellings, ∃ there, here.past? w = some there ∧
      q.run there got next = some r := by
  simp only [run, Option.ite_none_right_eq_some, run_literal literal] at h
  obtain ⟨w, mem, hw⟩ := List.exists_of_findSome?_eq_some h.2
  obtain ⟨there, past, run⟩ := Option.bind_eq_some_iff.mp hw
  exact ⟨h.1, w, mem, there, past, run⟩

/-- A pattern that begins with words goes on after the one spelling that comes next. -/
theorem run_of_spelled (literal : words.isLiteral = true) (bound : here.atBoundary = true)
    {w : List Char} (mem : w ∈ words.spellings) (past : here.past? w = some there)
    (only : ∀ v ∈ words.spellings, v <+: folded here.rest → v = w)
    (h : q.run there got next = some r) :
    (seq boundary (seq words q)).run here got next = some r := by
  simp only [run, if_pos bound, run_literal literal]
  have found : (words.spellings.findSome? fun w => (here.past? w).bind fun there =>
      q.run there got next).isSome := by
    rw [List.findSome?_isSome_iff]
    exact ⟨w, mem, by simp [past, h]⟩
  obtain ⟨r', hr'⟩ := Option.isSome_iff_exists.mp found
  obtain ⟨v, hv, ends⟩ := List.exists_of_findSome?_eq_some hr'
  obtain ⟨there', past', h'⟩ := Option.bind_eq_some_iff.mp ends
  obtain rfl := only v hv (Place.past?_eq_some_iff.mp past').1
  rw [past] at past'
  cases past'
  rw [hr', ← h', h]

end

end Pattern

end RecordQuery.Text
