import Mathlib.Data.List.TakeWhile

/-!
# Streams in text mode

A C runtime opens a file in binary mode or in text mode. In text mode a
newline that is written becomes a carriage return and a newline in the file,
the two become one newline again where they are read, and there is one
character that ends what is read, wherever it stands. Nothing keeps that
character out of what is written. So a text that is written and read comes
back up to that character and no further (`read_write`), and what cannot be
read is lost without any error.

The alphabet is a parameter: characters, or bytes.
-/

/-- The characters that text mode treats in a way of its own. -/
structure TextMode (α : Type) where
  cr : α
  newline : α
  endOfFile : α
  cr_ne_newline : cr ≠ newline
  endOfFile_ne_cr : endOfFile ≠ cr
  endOfFile_ne_newline : endOfFile ≠ newline

namespace TextMode

/-- The mode in another alphabet that has the characters. -/
def map {α β : Type} (m : TextMode α) (f : α → β) (hf : Function.Injective f) :
    TextMode β where
  cr := f m.cr
  newline := f m.newline
  endOfFile := f m.endOfFile
  cr_ne_newline := hf.ne m.cr_ne_newline
  endOfFile_ne_cr := hf.ne m.endOfFile_ne_cr
  endOfFile_ne_newline := hf.ne m.endOfFile_ne_newline

variable {α : Type} [DecidableEq α] (m : TextMode α)

/-- A carriage return before a newline is left out. -/
def newlines : List α → List α
  | [] => []
  | [c] => [c]
  | c :: d :: cs =>
    if c = m.cr ∧ d = m.newline then newlines (d :: cs)
    else c :: newlines (d :: cs)

/-- What is read of a file. -/
def read (file : List α) : List α :=
  m.newlines (file.takeWhile (fun c => c ≠ m.endOfFile))

/-- The file of a character that is written. -/
def writeChar (c : α) : List α := if c = m.newline then [m.cr, c] else [c]

/-- The file of a text that is written. -/
def write (text : List α) : List α := text.flatMap m.writeChar

variable {m} {c : α} {t file : List α}

theorem newlines_cons (h : c = m.cr → t.head? ≠ some m.newline) :
    m.newlines (c :: t) = c :: m.newlines t := by
  cases t with
  | nil => rfl
  | cons d t => exact if_neg (fun hcd => h hcd.1 (congrArg some hcd.2))

theorem newlines_cons_of_ne (h : c ≠ m.cr) :
    m.newlines (c :: t) = c :: m.newlines t :=
  newlines_cons (fun hc => absurd hc h)

theorem newlines_cr_newline :
    m.newlines (m.cr :: m.newline :: t) = m.newlines (m.newline :: t) :=
  if_pos ⟨rfl, rfl⟩

/-- Line ends are the same in every alphabet. -/
theorem newlines_map {β : Type} [DecidableEq β] {f : α → β}
    (hf : Function.Injective f)
    (t : List α) : (m.map f hf).newlines (t.map f) = (m.newlines t).map f := by
  induction t with
  | nil => rfl
  | cons c t ih =>
    cases t with
    | nil => rfl
    | cons d t =>
      by_cases h : c = m.cr ∧ d = m.newline
      · obtain ⟨rfl, rfl⟩ := h
        rw [newlines_cr_newline, ← ih]
        exact newlines_cr_newline
      · have hmap : ¬ (f c = f m.cr ∧ f d = f m.newline) :=
          fun hcd => h ⟨hf hcd.1, hf hcd.2⟩
        have hcons : m.newlines (c :: d :: t) = c :: m.newlines (d :: t) :=
          if_neg h
        rw [hcons]
        exact (if_neg hmap).trans (congrArg _ ih)

/-- What is in front of a text and is no line end stays there. -/
theorem newlines_append (h : m.cr ∉ file) :
    m.newlines (file ++ t) = file ++ m.newlines t := by
  induction file with
  | nil => rfl
  | cons c file ih =>
    obtain ⟨hc, hfile⟩ := List.ne_and_not_mem_of_not_mem_cons h
    rw [List.cons_append, newlines_cons_of_ne (Ne.symm hc), ih hfile,
      List.cons_append]

/-- What stands in front without line ends was in front already. -/
theorem prefix_of_newlines (hcr : m.cr ∉ file) (hnewline : m.newline ∉ file)
    (h : file <+: m.newlines t) : file <+: t := by
  induction file generalizing t with
  | nil => exact List.nil_prefix
  | cons e file ih =>
    obtain ⟨he, hcr⟩ := List.ne_and_not_mem_of_not_mem_cons hcr
    obtain ⟨he', hnewline⟩ := List.ne_and_not_mem_of_not_mem_cons hnewline
    cases t with
    | nil => exact h
    | cons c t =>
      by_cases hend : c = m.cr ∧ t.head? = some m.newline
      · obtain ⟨rfl, hhead⟩ := hend
        obtain ⟨rest, rfl⟩ := List.head?_eq_some_iff.mp hhead
        rw [newlines_cr_newline,
          newlines_cons_of_ne (Ne.symm m.cr_ne_newline)] at h
        exact absurd (List.cons_prefix_cons.mp h).1.symm he'
      · rw [newlines_cons (fun hc hhead => hend ⟨hc, hhead⟩)] at h
        obtain ⟨rfl, hrest⟩ := List.cons_prefix_cons.mp h
        exact List.cons_prefix_cons.mpr ⟨rfl, ih hcr hnewline hrest⟩

/-- Nothing is read that is not in the file. -/
theorem newlines_subset (t : List α) : m.newlines t ⊆ t := by
  induction t with
  | nil => exact List.Subset.refl _
  | cons c t ih =>
    cases t with
    | nil => exact List.Subset.refl _
    | cons d t =>
      rw [newlines]
      split
      next => exact List.subset_cons_of_subset c ih
      next => exact List.cons_subset_cons c ih

/-- Only carriage returns are left out. -/
theorem mem_newlines {c : α} (hc : c ≠ m.cr) (h : c ∈ t) :
    c ∈ m.newlines t := by
  induction t with
  | nil => exact h
  | cons d t ih =>
    cases t with
    | nil => exact h
    | cons e t =>
      rw [newlines]
      split
      next hend =>
        refine ih ((List.mem_cons.mp h).resolve_left (fun heq => hc ?_))
        rw [heq, hend.1]
      next =>
        rcases List.mem_cons.mp h with rfl | h
        · exact List.mem_cons_self
        · exact List.mem_cons_of_mem _ (ih h)

/-- A file of a text never begins with a newline: there is a carriage return
before it. -/
theorem head?_write_ne (t : List α) : (m.write t).head? ≠ some m.newline := by
  cases t with
  | nil => simp [write]
  | cons c t =>
    rw [write, List.flatMap_cons, writeChar]
    split
    next => simpa using m.cr_ne_newline
    next hc => simpa using hc

/-- Line ends are read as they were written. -/
theorem newlines_write (t : List α) : m.newlines (m.write t) = t := by
  induction t with
  | nil => rfl
  | cons c t ih =>
    have hrest : m.newlines (c :: m.write t) = c :: t := by
      rw [newlines_cons (fun _ => head?_write_ne t), ih]
    have hcons : m.write (c :: t) = m.writeChar c ++ m.write t :=
      List.flatMap_cons
    rw [hcons, writeChar]
    split
    next hc =>
      subst hc
      exact newlines_cr_newline.trans hrest
    next => exact hrest

/-- The end of a text is the end of its file. -/
theorem takeWhile_write (t : List α) :
    (m.write t).takeWhile (fun c => c ≠ m.endOfFile)
      = m.write (t.takeWhile (fun c => c ≠ m.endOfFile)) := by
  induction t with
  | nil => rfl
  | cons c t ih =>
    have hcons : m.write (c :: t) = m.writeChar c ++ m.write t :=
      List.flatMap_cons
    by_cases hc : c = m.endOfFile
    · subst hc
      rw [hcons, writeChar, if_neg m.endOfFile_ne_newline]
      simp [write]
    · have hchar : ∀ d ∈ m.writeChar c, d ≠ m.endOfFile := by
        intro d hd
        rw [writeChar] at hd
        split at hd
        next =>
          simp only [List.mem_cons, List.not_mem_nil, or_false] at hd
          rcases hd with rfl | rfl
          · exact Ne.symm m.endOfFile_ne_cr
          · exact hc
        next => exact List.mem_singleton.mp hd ▸ hc
      rw [hcons, List.takeWhile_append_of_pos (by simpa using hchar), ih,
        List.takeWhile_cons_of_pos (by simpa using hc)]
      exact List.flatMap_cons.symm

/-- **What is written is read up to the character that ends a file.** A line
feed is two characters in the file and one again when it is read, and so the
end of the file is all that is left of the mode. -/
theorem read_write (t : List α) :
    m.read (m.write t) = t.takeWhile (fun c => c ≠ m.endOfFile) := by
  rw [read, takeWhile_write, newlines_write]

/-- Without that character it is read whole. -/
theorem read_write_of_notMem (h : m.endOfFile ∉ t) :
    m.read (m.write t) = t := by
  rw [read_write, List.takeWhile_eq_self_iff]
  intro c hc
  simpa using fun heq : c = m.endOfFile => h (heq ▸ hc)

theorem read_of_notMem (h : m.endOfFile ∉ file) :
    m.read file = m.newlines file := by
  rw [read, List.takeWhile_eq_self_iff.mpr]
  intro c hc
  simpa using fun heq : c = m.endOfFile => h (heq ▸ hc)

/-- What is in front of a file and has nothing special is read as it is. -/
theorem read_append (hcr : m.cr ∉ t) (hend : m.endOfFile ∉ t) :
    m.read (t ++ file) = t ++ m.read file := by
  have hall : ∀ c ∈ t, decide (c ≠ m.endOfFile) = true := by
    intro c hc
    simpa using fun heq : c = m.endOfFile => hend (heq ▸ hc)
  rw [read, List.takeWhile_append_of_pos hall, newlines_append hcr]
  rfl

end TextMode
