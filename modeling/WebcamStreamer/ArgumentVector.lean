import Mathlib.Data.List.Basic

/-!
# Splitting a command line into arguments

The rules by which a command line becomes an argument vector where backslashes
are ordinary except in front of a quotation mark: `2n` of them and a mark are
`n` backslashes and a mark that opens or closes, `2n + 1` of them and a mark are
`n` backslashes and a mark that belongs to the argument. Blanks separate
arguments outside of quotation marks. The first argument is a program name and
has simpler rules: it ends at the next mark if it starts with one, at the next
blank otherwise, and its backslashes are ordinary everywhere.

What a second mark right behind a closing one means has changed over time, so
it is a parameter: it may just open again, or belong to the argument and leave
the reader inside or outside.
-/

namespace ArgumentVector

/-- The marks of a command line over an alphabet. -/
structure Marks (α : Type*) where
  isBlank : α → Bool
  quote : α
  slash : α
  quote_ne_slash : quote ≠ slash
  isBlank_quote : isBlank quote = false
  isBlank_slash : isBlank slash = false

/-- Where the reader is: outside of quotation marks, inside, or right behind a
closing one. -/
inductive Quotes where
  | outside
  | inside
  | closed
  deriving DecidableEq

/-- Where the reader is after something that is no mark. -/
def Quotes.settle : Quotes → Quotes
  | .inside => .inside
  | _ => .outside

/-- What a mark right behind a closing one does: it opens again, or it is part
of the argument and the reader goes on from `next`. -/
inductive Doubled where
  | opens
  | literal (next : Quotes)
  deriving DecidableEq

section Reader

variable {α : Type*} [DecidableEq α] (m : Marks α) (doubled : Doubled)

/-- The argument being read, if there is one, with the pending backslashes. -/
def finish (slashes : ℕ) : Option (List α) → List (List α)
  | none => []
  | some arg => [arg ++ List.replicate slashes m.slash]

/-- The mark behind an even number of backslashes. -/
def bareQuote (slashes : ℕ) (arg : List α) : Quotes → List α × Quotes
  | .outside => (arg, .inside)
  | .inside => (arg, .closed)
  | .closed =>
    match doubled with
    | .opens => (arg, .inside)
    | .literal next =>
      if slashes = 0 then (arg ++ [m.quote], next) else (arg, .inside)

/-- The arguments behind the program name. `current` is the argument being read,
and `slashes` the number of backslashes that may still turn out to stand in
front of a mark. -/
def scan : Quotes → ℕ → Option (List α) → List α → List (List α)
  | _, slashes, current, [] => finish m slashes current
  | quotes, slashes, current, c :: cs =>
    if m.isBlank c = true ∧ quotes ≠ .inside then
      finish m slashes current ++ scan .outside 0 none cs
    else if c = m.slash then
      scan quotes.settle (slashes + 1) (some (current.getD [])) cs
    else if c = m.quote then
      let arg := current.getD [] ++ List.replicate (slashes / 2) m.slash
      if slashes % 2 = 1 then scan quotes.settle 0 (some (arg ++ [m.quote])) cs
      else
        scan (bareQuote m doubled slashes arg quotes).2 0
          (some (bareQuote m doubled slashes arg quotes).1) cs
    else
      scan quotes.settle 0
        (some (current.getD [] ++ List.replicate slashes m.slash ++ [c])) cs

/-- The program name at the start of a line, and what follows it. -/
def splitProgram : List α → List α × List α
  | [] => ([], [])
  | c :: cs =>
    if c = m.quote then
      (cs.takeWhile (· ≠ m.quote), (cs.dropWhile (· ≠ m.quote)).tail)
    else
      ((c :: cs).takeWhile (fun d => !m.isBlank d),
        (c :: cs).dropWhile (fun d => !m.isBlank d))

/-- **The argument vector of a command line.** The program is split off under
rules of its own, without escapes, and what is behind it is scanned argument
by argument. -/
def argumentVector (line : List α) : List (List α) :=
  (splitProgram m line).1 :: scan m doubled .outside 0 none
    (splitProgram m line).2

end Reader

section Rules

variable {α : Type*} [DecidableEq α] {m : Marks α} {doubled : Doubled}

/-- The text ends the argument before it: it is empty or starts with a
blank. -/
def Ends (m : Marks α) (rest : List α) : Prop :=
  ∀ c ∈ rest.head?, m.isBlank c = true

theorem scan_blank {quotes : Quotes} (hq : quotes ≠ .inside) (slashes : ℕ)
    (current : Option (List α)) {c : α} (hc : m.isBlank c = true)
    (cs : List α) :
    scan m doubled quotes slashes current (c :: cs)
      = finish m slashes current ++ scan m doubled .outside 0 none cs := by
  rw [scan, if_pos ⟨hc, hq⟩]

theorem scan_slash (quotes : Quotes) (slashes : ℕ) (current : Option (List α))
    (cs : List α) :
    scan m doubled quotes slashes current (m.slash :: cs)
      = scan m doubled quotes.settle (slashes + 1)
        (some (current.getD [])) cs := by
  rw [scan, if_neg (by simp [m.isBlank_slash]), if_pos rfl]

/-- A run of backslashes is counted. -/
theorem scan_slashes (slashes k : ℕ) (arg rest : List α) :
    scan m doubled .inside slashes (some arg) (List.replicate k m.slash ++ rest)
      = scan m doubled .inside (slashes + k) (some arg) rest := by
  induction k generalizing slashes with
  | zero => rfl
  | succ k ih =>
    rw [List.replicate_succ, List.cons_append, scan_slash]
    show scan m doubled .inside (slashes + 1) (some arg) _ = _
    rw [ih, Nat.add_assoc, Nat.add_comm 1 k]

/-- An odd number of backslashes and a mark: the mark belongs to the
argument. -/
theorem scan_quote_odd (n : ℕ) (arg rest : List α) :
    scan m doubled .inside 0 (some arg)
        (List.replicate (2 * n + 1) m.slash ++ m.quote :: rest)
      = scan m doubled .inside 0
          (some (arg ++ List.replicate n m.slash ++ [m.quote])) rest := by
  rw [scan_slashes, scan, if_neg (by simp), if_neg m.quote_ne_slash, if_pos rfl]
  have hodd : (0 + (2 * n + 1)) % 2 = 1 := by omega
  have hhalf : (0 + (2 * n + 1)) / 2 = n := by omega
  rw [if_pos hodd, hhalf]
  rfl

/-- An even number of backslashes and a mark: the mark closes. -/
theorem scan_quote_even (n : ℕ) (arg rest : List α) :
    scan m doubled .inside 0 (some arg)
        (List.replicate (2 * n) m.slash ++ m.quote :: rest)
      = scan m doubled .closed 0
        (some (arg ++ List.replicate n m.slash)) rest := by
  rw [scan_slashes, scan, if_neg (by simp), if_neg m.quote_ne_slash, if_pos rfl]
  have heven : ¬ (0 + 2 * n) % 2 = 1 := by omega
  have hhalf : (0 + 2 * n) / 2 = n := by omega
  rw [if_neg heven, hhalf]
  rfl

/-- Backslashes in front of anything else are ordinary. -/
theorem scan_inside_other {c : α} (hs : c ≠ m.slash) (hq : c ≠ m.quote) (n : ℕ)
    (arg rest : List α) :
    scan m doubled .inside 0 (some arg) (List.replicate n m.slash ++ c :: rest)
      = scan m doubled .inside 0
        (some (arg ++ List.replicate n m.slash ++ [c])) rest := by
  rw [scan_slashes, scan, if_neg (by simp), if_neg hs, if_neg hq, Nat.zero_add]
  rfl

/-- The mark that opens an argument. -/
theorem scan_open (rest : List α) :
    scan m doubled .outside 0 none (m.quote :: rest)
      = scan m doubled .inside 0 (some []) rest := by
  rw [scan, if_neg (by simp [m.isBlank_quote]),
    if_neg m.quote_ne_slash, if_pos rfl]
  rfl

/-- What ends an argument finishes it. -/
theorem scan_ends {quotes : Quotes} (hq : quotes ≠ .inside) (slashes : ℕ)
    (arg : List α)
    {rest : List α} (h : Ends m rest) :
    scan m doubled quotes slashes (some arg) rest
      = (arg ++ List.replicate slashes m.slash) :: scan m doubled .outside 0
        none rest := by
  cases rest with
  | nil => rfl
  | cons c cs =>
    have hc : m.isBlank c = true := h c rfl
    rw [scan_blank hq _ _ hc, scan_blank (by simp) _ _ hc]
    rfl

/-- An argument without blanks and marks ends where it ends. -/
theorem scan_word {s : List α} (hs : ∀ c ∈ s, m.isBlank c = false ∧ c ≠ m.quote)
    (slashes : ℕ) (arg : List α) {rest : List α} (h : Ends m rest) :
    scan m doubled .outside slashes (some arg) (s ++ rest)
      = (arg ++ List.replicate slashes m.slash ++ s)
        :: scan m doubled .outside 0 none rest := by
  induction s generalizing slashes arg with
  | nil =>
    rw [List.append_nil]
    exact scan_ends (by simp) slashes arg h
  | cons c s ih =>
    obtain ⟨⟨hblank, hquote⟩, htail⟩ := List.forall_mem_cons.mp hs
    by_cases hslash : c = m.slash
    · subst hslash
      rw [List.cons_append, scan_slash]
      show scan m doubled .outside (slashes + 1) (some arg) (s ++ rest) = _
      rw [ih htail, List.replicate_succ']
      simp
    · rw [List.cons_append, scan, if_neg (by simp [hblank]), if_neg hslash,
        if_neg hquote]
      show scan m doubled .outside 0 _ (s ++ rest) = _
      rw [ih htail]
      simp

/-- The first character of an argument that no mark opens. -/
theorem scan_first {c : α} (hblank : m.isBlank c = false) (cs : List α) :
    scan m doubled .outside 0 none (c :: cs)
      = scan m doubled .outside 0 (some []) (c :: cs) := by
  simp [scan, hblank]

/-- A program name between marks. -/
theorem splitProgram_quoted {exe : List α} (h : m.quote ∉ exe) (rest : List α) :
    splitProgram m (m.quote :: (exe ++ m.quote :: rest)) = (exe, rest) := by
  have hexe : ∀ c ∈ exe, decide (c ≠ m.quote) = true :=
    fun c hc => decide_eq_true (fun heq => h (heq ▸ hc))
  rw [splitProgram, if_pos rfl, List.takeWhile_append_of_pos hexe,
    List.dropWhile_append_of_pos hexe, List.takeWhile_cons_of_neg (by simp),
    List.dropWhile_cons_of_neg (by simp), List.append_nil, List.tail_cons]

/-- A program name without blanks that does not start with a mark. -/
theorem splitProgram_plain {c : α} {exe : List α} (hc : c ≠ m.quote)
    (h : ∀ d ∈ c :: exe, m.isBlank d = false) {rest : List α}
    (hr : Ends m rest) :
    splitProgram m (c :: exe ++ rest) = (c :: exe, rest) := by
  have hexe : ∀ d ∈ c :: exe, (!m.isBlank d) = true :=
    fun d hd => by rw [h d hd]; rfl
  rw [List.cons_append, splitProgram, if_neg hc, ← List.cons_append,
    List.takeWhile_append_of_pos hexe, List.dropWhile_append_of_pos hexe]
  cases rest with
  | nil => simp
  | cons d rest =>
    have hd : m.isBlank d = true := hr d rfl
    rw [List.takeWhile_cons_of_neg (by simp [hd]),
      List.dropWhile_cons_of_neg (by simp [hd]),
      List.append_nil]

end Rules

end ArgumentVector
