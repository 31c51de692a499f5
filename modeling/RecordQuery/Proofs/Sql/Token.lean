import RecordQuery.Sql.Piece

/-!
# Tokens of SQL text

`tokens` reads SQL text as a database does: words (keywords, numbers and placeholders), names in
brackets, comparison signs and single marks, each as long as it can be. Within brackets every
character belongs to the name, and a closing bracket is written twice. Statements have no string
literals and no comments, so there are no other tokens.

Text that is put together is read part by part where no token runs on from one part into the next
(`tokens_append`); `Legible` says this of pieces.
-/

namespace RecordQuery.Sql

inductive Token where
  | word (s : String)
  | ident (name : String)
  | sign (s : String)
  | mark (c : Char)
  deriving DecidableEq, Repr

def isWordChar (c : Char) : Bool :=
  c.isAlphanum || c == '_' || c == '@' || c == '#' || c == '$' || 128 ≤ c.toNat

def isSignChar (c : Char) : Bool := c == '<' || c == '>' || c == '=' || c == '!'

/-- The token that is being read, with its characters so far. -/
inductive Scan where
  | idle
  | word (cs : List Char)
  | sign (cs : List Char)
  | name (cs : List Char)
  /-- A closing bracket was read; it ends the name unless another one follows. -/
  | nameEnd (cs : List Char)
  deriving DecidableEq, Repr

namespace Scan

/-- The token read, if the text ends here. -/
def close : Scan → List Token
  | idle => []
  | word cs => [.word (.ofList cs)]
  | sign cs => [.sign (.ofList cs)]
  | name _ => []
  | nameEnd cs => [.ident (.ofList cs)]

/-- The token with one more character, if the character belongs to it. -/
def extend? : Scan → Char → Option Scan
  | idle, _ => none
  | word cs, c => if isWordChar c then some (word (cs ++ [c])) else none
  | sign cs, c => if isSignChar c then some (sign (cs ++ [c])) else none
  | name cs, c => some (if c = ']' then nameEnd cs else name (cs ++ [c]))
  | nameEnd cs, c => if c = ']' then some (name (cs ++ [c])) else none

/-- What a character starts: a token that is whole, and one that may go on. -/
def start (c : Char) : List Token × Scan :=
  if c = '[' then ([], name [])
  else if isWordChar c then ([], word [c])
  else if isSignChar c then ([], sign [c])
  else if c.isWhitespace then ([], idle)
  else ([.mark c], idle)

def step (s : Scan) (c : Char) : List Token × Scan :=
  match s.extend? c with
  | some s => ([], s)
  | none => (s.close ++ (start c).1, (start c).2)

/-- The tokens that end within a text, and the one that is being read at its end. -/
def run : Scan → List Char → List Token × Scan
  | s, [] => ([], s)
  | s, c :: cs =>
    let (ts, s) := s.step c
    let (us, s) := s.run cs
    (ts ++ us, s)

theorem run_append (s : Scan) (xs ys : List Char) :
    s.run (xs ++ ys) = ((s.run xs).1 ++ ((s.run xs).2.run ys).1, ((s.run xs).2.run ys).2) := by
  induction xs generalizing s with
  | nil => rfl
  | cons c cs ih => simp only [List.cons_append, run, ih, List.append_assoc]

/-- Where a token cannot go on, what follows is read as from the start. -/
theorem run_of_extend?_eq_none {s : Scan} {cs : List Char}
    (h : ∀ c ∈ cs.head?, s.extend? c = none) (hne : cs ≠ []) :
    s.run cs = (s.close ++ (idle.run cs).1, (idle.run cs).2) := by
  cases cs with
  | nil => exact absurd rfl hne
  | cons c cs =>
    have hc : s.step c = (s.close ++ (start c).1, (start c).2) := by rw [step, h c rfl]
    have hi : idle.step c = start c := rfl
    simp only [run, hc, hi, List.append_assoc]

theorem run_word {cs : List Char} (h : ∀ c ∈ cs, isWordChar c = true) (acc : List Char) :
    (word acc).run cs = ([], word (acc ++ cs)) := by
  induction cs generalizing acc with
  | nil => simp [run]
  | cons c cs ih =>
    have hc : isWordChar c = true := h c List.mem_cons_self
    simp only [run, step, extend?, hc, ↓reduceIte]
    rw [ih (fun d hd => h d (List.mem_cons_of_mem _ hd))]
    simp

/-- A name is read up to its own closing bracket, whatever brackets it has itself. -/
theorem run_name (cs acc : List Char) :
    (name acc).run (doubleBrackets cs ++ [']']) = ([], nameEnd (acc ++ cs)) := by
  induction cs generalizing acc with
  | nil => simp [doubleBrackets, run, step, extend?]
  | cons c cs ih =>
    by_cases hc : c = ']'
    · subst hc
      simp [doubleBrackets, run, step, extend?, ih]
    · simp [doubleBrackets, hc, run, step, extend?, ih]

/-- No bracket is open. -/
def settled : Scan → Bool
  | name _ => false
  | _ => true

end Scan

/-- What is being read when a text ends. -/
def after (s : String) : Scan := (Scan.idle.run s.toList).2

def tokens (s : String) : List Token := (Scan.idle.run s.toList).1 ++ (after s).close

example : tokens "([t0].[a]] @p1] <> @p0)"
    = [.mark '(', .ident "t0", .mark '.', .ident "a] @p1", .sign "<>", .word "@p0", .mark ')'] :=
  rfl

/-- A character that ends every token outside of brackets. -/
def isSeparator (c : Char) : Bool := !isWordChar c && !isSignChar c && c != ']'

/-- The text starts with a character that ends the token before it. -/
def opens (s : String) : Bool := s.toList.head?.any isSeparator

/-- No token of the text can go on after it. -/
def closes (s : String) : Bool := after s == .idle

theorem extend?_eq_none_of_isSeparator {s : Scan} {c : Char} (hs : s.settled = true)
    (hc : isSeparator c = true) : s.extend? c = none := by
  simp only [isSeparator, Bool.and_eq_true, Bool.not_eq_true', bne_iff_ne] at hc
  obtain ⟨⟨hw, hsign⟩, hb⟩ := hc
  cases s with
  | idle => rfl
  | word cs => simp [Scan.extend?, hw]
  | sign cs => simp [Scan.extend?, hsign]
  | name cs => cases hs
  | nameEnd cs => simp [Scan.extend?, hb]

/-- No token runs on from the first text into the second. -/
def Apart (a b : String) : Prop := ∀ c ∈ b.toList.head?, (after a).extend? c = none

theorem Apart.of_closes {a : String} (h : closes a = true) (b : String) : Apart a b := by
  intro c _
  rw [beq_iff_eq.mp h]
  rfl

theorem Apart.of_opens {a b : String} (ha : (after a).settled = true) (hb : opens b = true) :
    Apart a b := by
  intro c hc
  rw [opens, Option.mem_def.mp hc] at hb
  exact extend?_eq_none_of_isSeparator ha hb

theorem tokens_append {a b : String} (h : Apart a b) : tokens (a ++ b) = tokens a ++ tokens b := by
  by_cases hb : b.toList = []
  · have : b = "" := by rw [← String.ofList_toList (s := b), hb]
    subst this
    simp [tokens, after, Scan.run, Scan.close]
  · simp only [tokens, after, String.toList_append, Scan.run_append]
    rw [Scan.run_of_extend?_eq_none (s := (Scan.idle.run a.toList).2) h hb]
    simp

theorem after_append {a b : String} (h : Apart a b) (hb : b ≠ "") : after (a ++ b) = after b := by
  have hne : b.toList ≠ [] := fun e => hb (by rw [← String.ofList_toList (s := b), e])
  simp only [after, String.toList_append, Scan.run_append]
  rw [Scan.run_of_extend?_eq_none (s := (Scan.idle.run a.toList).2) h hne]

/-! ## Names, numbers and placeholders -/

theorem run_quoted (name : String) :
    Scan.idle.run (quoted name).toList = ([], .nameEnd name.toList) := by
  simp only [quoted, String.toList_ofList, List.cons_append]
  simp only [Scan.run, Scan.step, Scan.extend?, Scan.close, Scan.start, ↓reduceIte,
    List.append_nil, List.nil_append]
  rw [Scan.run_name]
  rfl

theorem after_quoted (name : String) : after (quoted name) = .nameEnd name.toList := by
  rw [after, run_quoted]

@[simp] theorem tokens_quoted (name : String) : tokens (quoted name) = [.ident name] := by
  rw [tokens, after_quoted, run_quoted]
  simp [Scan.close]

theorem run_wordChars {cs : List Char} (h : ∀ c ∈ cs, isWordChar c = true) (hne : cs ≠ []) :
    Scan.idle.run cs = ([], .word cs) := by
  cases cs with
  | nil => exact absurd rfl hne
  | cons c cs =>
    have hc : isWordChar c = true := h c List.mem_cons_self
    have hb : c ≠ '[' := by rintro rfl; revert hc; decide
    simp only [Scan.run, Scan.step, Scan.extend?, Scan.close, Scan.start, hb, hc, ↓reduceIte]
    rw [Scan.run_word (fun d hd => h d (List.mem_cons_of_mem _ hd))]
    rfl

theorem isWordChar_of_mem_natDigits {n : Nat} {c : Char} (h : c ∈ Number.natDigits n) :
    isWordChar c = true := by
  have hd : c.isDigit = true := Nat.isDigit_of_mem_toDigits (by decide) (by decide) h
  simp [isWordChar, Char.isAlphanum, hd]

theorem toList_natText (n : Nat) : (Number.natText n).toList = Number.natDigits n :=
  String.toList_ofList

theorem run_natText (n : Nat) :
    Scan.idle.run (Number.natText n).toList = ([], .word (Number.natDigits n)) := by
  rw [toList_natText]
  exact run_wordChars (fun _ => isWordChar_of_mem_natDigits) Nat.toDigits_ne_nil

theorem after_natText (n : Nat) : after (Number.natText n) = .word (Number.natDigits n) := by
  rw [after, run_natText]

@[simp] theorem tokens_natText (n : Nat) :
    tokens (Number.natText n) = [.word (Number.natText n)] := by
  rw [tokens, after_natText, run_natText]
  rfl

theorem natText_injective {m n : Nat} (h : Number.natText m = Number.natText n) : m = n := by
  have := congrArg String.toList h
  rw [toList_natText, toList_natText] at this
  rw [← Nat.ofDigitChars_ten_toDigits (n := m), ← Nat.ofDigitChars_ten_toDigits (n := n)]
  exact congrArg (Nat.ofDigitChars 10 · 0) this

theorem toList_placeholder (n : Nat) :
    (placeholder n).toList = '@' :: 'p' :: Number.natDigits n := by
  rw [placeholder, String.toList_append, toList_natText]
  rfl

theorem run_placeholder (n : Nat) :
    Scan.idle.run (placeholder n).toList = ([], .word (placeholder n).toList) := by
  refine run_wordChars (fun c hc => ?_) (by rw [toList_placeholder]; exact List.cons_ne_nil _ _)
  rw [toList_placeholder] at hc
  simp only [List.mem_cons] at hc
  obtain rfl | rfl | hc := hc
  · decide
  · decide
  · exact isWordChar_of_mem_natDigits hc

theorem after_placeholder (n : Nat) : after (placeholder n) = .word (placeholder n).toList := by
  rw [after, run_placeholder]

@[simp] theorem tokens_placeholder (n : Nat) :
    tokens (placeholder n) = [.word (placeholder n)] := by
  rw [tokens, after_placeholder, run_placeholder]
  simp [Scan.close]

theorem placeholder_ne {w : String} (h : w.toList.head? ≠ some '@') (n : Nat) :
    placeholder n ≠ w := by
  rintro rfl
  exact h (by rw [toList_placeholder]; rfl)

theorem placeholder_injective {m n : Nat} (h : placeholder m = placeholder n) : m = n := by
  have := congrArg String.toList h
  rw [placeholder, placeholder, String.toList_append, String.toList_append] at this
  exact natText_injective (String.toList_inj.mp (List.append_cancel_left this))

end RecordQuery.Sql
