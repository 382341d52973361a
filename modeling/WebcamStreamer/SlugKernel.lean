import WebcamStreamer.CameraProbe
import WebcamStreamer.CommandLine

/-!
# Which cameras share their files

The files of a camera are found under the slug of its name, so that cameras
whose names have one slug share their override, their summary and their report.
`SlugifyName` reads a wide string unit by unit. On the units of a text it does
what the reading character by character does that the rest of the development
uses (`slugifyWide_wide`).

Both spellings of the rule are kept since the source has both in it: the loop
over units is what runs, and the characters are what the names of cameras
consist of. What two names with one slug have in common is said by the runs of
alphanumeric characters in them (`slugifyWide_canonical`), so that it can be
seen which cameras will overwrite the files of each other.
-/

namespace WebcamStreamer

open Slugs

/-- What `SlugifyName` takes for a letter or a digit. -/
def isAlnum (c : UInt16) : Bool :=
  (0x61 ≤ c && c ≤ 0x7A) || (0x41 ≤ c && c ≤ 0x5A) || (0x30 ≤ c && c ≤ 0x39)

/-- The units of a slug. -/
def slugUnits : Charset UInt16 where
  keep := isAlnum
  dash := 0x2D
  keep_dash := by decide

/-- `SlugifyName`, on the units it reads. -/
def slugifyWide (name : WString) : WString := slugUnits.slug name

/-- **Slugs and what they tell apart.** A slug has letters, digits and dashes,
no two dashes next to each other and none at its end, and it is its own slug.
Names with a letter or a digit have one slug exactly if they have the same runs
of these and both or neither of them starts with something else; all other names
have the empty slug. -/
theorem slugifyWide_canonical :
    (∀ name : WString,
      (∀ c ∈ slugifyWide name, isAlnum c = true ∨ c = 0x2D)
      ∧ ¬ [0x2D, 0x2D] <:+: slugifyWide name
      ∧ (slugifyWide name).getLast? ≠ some 0x2D
      ∧ slugifyWide (slugifyWide name) = slugifyWide name)
    ∧ (∀ name name' : WString, (∃ c ∈ name, isAlnum c = true) →
      (∃ c ∈ name', isAlnum c = true) →
      (slugifyWide name = slugifyWide name'
        ↔ runs isAlnum name = runs isAlnum name'
          ∧ startsOff isAlnum name = startsOff isAlnum name'))
    ∧ ∀ name : WString, (∀ c ∈ name, isAlnum c = false) →
      slugifyWide name = [] := by
  refine ⟨fun name => ⟨fun c hc => Charset.mem_slug hc, ?_, ?_,
    Charset.slug_slug name⟩,
    ?_, fun name hname => Charset.slug_of_forall hname⟩
  · rintro ⟨a, b, hab⟩
    have hslug : slugUnits.slug name
        = a ++ slugUnits.dash :: (slugUnits.dash :: b) := by
      rw [← slugifyWide, ← hab, List.append_assoc]
      rfl
    obtain ⟨c, b', hb, hc⟩ := Charset.keep_of_slug_eq hslug
    rw [← (List.cons.inj hb).1, slugUnits.keep_dash] at hc
    exact Bool.false_ne_true hc
  · intro hlast
    obtain ⟨a, ha⟩ := List.getLast?_eq_some_iff.mp hlast
    have hslug : slugUnits.slug name = a ++ slugUnits.dash :: [] := ha
    obtain ⟨c, b, hb, -⟩ := Charset.keep_of_slug_eq hslug
    exact List.cons_ne_nil c b hb.symm
  · intro name name' hname hname'
    have hruns : ∀ {t : WString}, (∃ c ∈ t, isAlnum c = true) →
        runs isAlnum t ≠ [] := by
      rintro t ⟨c, hc, hkeep⟩ hnil
      have hoff := (Charset.runs_eq_nil_iff (s := slugUnits) t).mp hnil c hc
      exact Bool.false_ne_true (hoff.symm.trans hkeep)
    exact Charset.slug_inj.trans
      (Charset.parts_inj (hruns hname) (hruns hname'))

/-- A blank and a run of dashes tell two names apart as little as what comes at
the end. -/
theorem slugifyWide_canonical_blank :
    slugifyWide [0x48, 0x50, 0x20, 0x35] = slugifyWide [0x48, 0x50, 0x2D, 0x2D,
      0x35, 0x21] :=
  (slugifyWide_canonical.2.1 [0x48, 0x50, 0x20, 0x35] [0x48, 0x50, 0x2D,
    0x2D, 0x35, 0x21]
    ⟨0x48, by decide, by decide⟩ ⟨0x48, by decide, by decide⟩).mpr (by decide)

/-! ## Characters and units

`SlugifyName` works on the units of UTF-16, while names elsewhere are lists of
characters. Units beyond ASCII are never kept, and those of a pair are no
exception, so that both ways lead to the same slug. -/

theorem isSlugChar_ofNat : ∀ n < 0x80,
    (Char.ofNat n).toNat = n ∧
    isSlugChar (Char.ofNat n) = isAlnum (UInt16.ofNat n) := by
  decide

theorem lt_of_isSlugChar {c : Char} (h : isSlugChar c = true) :
    c.toNat < 0x80 := by
  have hle : ∀ {a b : Char}, a ≤ b → a.toNat ≤ b.toNat := fun h => h
  simp only [isSlugChar, Bool.or_eq_true, Bool.and_eq_true,
    decide_eq_true_eq] at h
  rcases h with (⟨-, h⟩ | ⟨-, h⟩) | ⟨-, h⟩ <;>
    exact Nat.lt_of_le_of_lt (hle h) (by decide)

theorem utf16_of_lt {c : Char} (h : c.toNat < 0x80) :
    utf16 c = [UInt16.ofNat c.toNat] :=
  if_pos (Nat.lt_trans h (by decide))

/-- A unit that is kept comes from the character it stands for. -/
theorem isSlugChar_of_mem_utf16 {c : Char} {u : UInt16} (hu : u ∈ utf16 c)
    (h : isAlnum u = true) : isSlugChar c = true := by
  have hlt : u.toNat < 0x80 := by
    simp only [isAlnum, Bool.or_eq_true, Bool.and_eq_true, decide_eq_true_eq,
      UInt16.le_iff_toNat_le] at h
    have h7A : (0x7A : UInt16).toNat = 0x7A := rfl
    have h5A : (0x5A : UInt16).toNat = 0x5A := rfl
    have h39 : (0x39 : UInt16).toNat = 0x39 := rfl
    omega
  obtain ⟨hd, hkeep⟩ := isSlugChar_ofNat u.toNat hlt
  have hunit : UInt16.ofNat (Char.ofNat u.toNat).toNat = u := by
    rw [hd, UInt16.ofNat_toNat]
  have hmem : UInt16.ofNat (Char.ofNat u.toNat).toNat ∈ utf16 c :=
    hunit.symm ▸ hu
  have hc : c = Char.ofNat u.toNat := eq_of_mem_utf16 (hd.symm ▸ hlt) hmem
  rw [hc, hkeep, UInt16.ofNat_toNat]
  exact h

/-- A character that is kept is a unit that is kept. -/
theorem isAlnum_of_isSlugChar {c : Char} (h : isSlugChar c = true) :
    isAlnum (UInt16.ofNat c.toNat) = true := by
  have hkeep := (isSlugChar_ofNat c.toNat (lt_of_isSlugChar h)).2
  rw [Char.ofNat_toNat] at hkeep
  exact hkeep.symm.trans h

theorem squeeze_flatMap_utf16 (prevDash : Bool) (t : Text) :
    slugUnits.squeeze prevDash (t.flatMap utf16)
      = (slugChars.squeeze prevDash t).flatMap utf16 := by
  induction t generalizing prevDash with
  | nil => rfl
  | cons c t ih =>
    rw [List.flatMap_cons, Charset.squeeze]
    by_cases hc : slugChars.keep c = true
    · have hone := utf16_of_lt (lt_of_isSlugChar hc)
      have hkeep : slugUnits.keep (UInt16.ofNat c.toNat) = true :=
        isAlnum_of_isSlugChar hc
      rw [if_pos hc, hone, List.singleton_append, Charset.squeeze,
        if_pos hkeep, ih,
        List.flatMap_cons, hone, List.singleton_append]
    · have hoff : ∀ u ∈ utf16 c, slugUnits.keep u = false := fun u hu =>
        Bool.eq_false_iff.mpr (fun h => hc (isSlugChar_of_mem_utf16 hu h))
      rw [if_neg hc, Charset.squeeze_append_of_not_keep (utf16_ne_nil c) hoff,
        ih]
      split <;> rfl

theorem trim_flatMap_utf16 (t : Text) :
    slugUnits.trim (t.flatMap utf16) = (slugChars.trim t).flatMap utf16 := by
  induction t with
  | nil => rfl
  | cons c t ih =>
    rw [List.flatMap_cons, Charset.trim_cons]
    by_cases hc : c = slugChars.dash
    · have hone : utf16 c = [slugUnits.dash] := by rw [hc]; rfl
      have hnil : (slugChars.trim t).flatMap utf16 = [] ↔
          slugChars.trim t = [] := by
        rw [List.flatMap_eq_nil_iff, List.eq_nil_iff_forall_not_mem]
        exact ⟨fun h d hd => utf16_ne_nil d (h d hd),
          fun h d hd => absurd hd (h d)⟩
      rw [hone, List.singleton_append, Charset.trim_cons, ih]
      by_cases ht : slugChars.trim t = []
      · rw [if_pos ⟨hnil.mpr ht, rfl⟩, if_pos ⟨ht, hc⟩]
        rfl
      · rw [if_neg (fun h => ht (hnil.mp h.1)), if_neg (fun h => ht h.1),
          List.flatMap_cons,
          hone]
        rfl
    · have hlt : ('-' : Char).toNat < 0x80 := by decide
      have hdash : slugUnits.dash ∉ utf16 c :=
        fun hmem => hc (eq_of_mem_utf16 hlt hmem)
      rw [Charset.trim_append_of_notMem hdash, ih, if_neg (fun h => hc h.2),
        List.flatMap_cons]

/-- **Units and characters**: the slug of the units of a name is the units of
its slug. No unit of a pair is alphanumeric, so that both units of a character
beyond the first plane go into the dash that stands for it. -/
theorem slugifyWide_wide (name : String) :
    slugifyWide (wide name) = (slugifyName name).flatMap utf16 := by
  rw [slugifyName, Charset.slug, ← trim_flatMap_utf16, ← squeeze_flatMap_utf16]
  rfl

end WebcamStreamer
