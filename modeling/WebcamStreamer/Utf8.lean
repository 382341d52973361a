import Mathlib.Data.Option.Basic
import WebcamStreamer.TextMode

/-!
# Reading UTF-8

Bytes are read one at a time. A character of several bytes is begun by one that
says how many are to follow, and each of those has to lie in a range; a byte
that does not is read again as a first one, and what was begun stands as
something that cannot be read. So any bytes are read, and `decode` says of each
place whether there is a character: a strict reader rejects the text where
there is none (`strict`), a lenient one puts a replacement character there
(`lenient`). Both read the same wherever the strict one reads at all, and what
was encoded is read back by both (`strict_encode`).
-/

namespace Utf8

/-- A character that was begun: how many bytes follow the next one, the range
of the next one, and the bits so far. -/
structure Begun where
  needed : ℕ
  low : ℕ
  high : ℕ
  bits : ℕ

/-- What a first byte begins. The ranges leave out what could be written
shorter, surrogates, and what is no character any more. -/
def lead (b : ℕ) : Option Begun :=
  if b < 0xC2 then none
  else if b < 0xE0 then some ⟨0, 0x80, 0xBF, b % 32⟩
  else if b < 0xF0 then
    some ⟨1, if b = 0xE0 then 0xA0 else 0x80,
      if b = 0xED then 0x9F else 0xBF, b % 16⟩
  else if b < 0xF5 then
    some ⟨2, if b = 0xF0 then 0x90 else 0x80,
      if b = 0xF4 then 0x8F else 0xBF, b % 8⟩
  else none

/-- A byte where no character is begun. -/
def first (b : UInt8) : List (Option Char) × Option Begun :=
  if b.toNat < 0x80 then ([some (Char.ofNat b.toNat)], none)
  else match lead b.toNat with
    | some begun => ([], some begun)
    | none => ([none], none)

/-- One byte: what is read, and the character that is begun behind it. -/
def step (begun : Option Begun) (b : UInt8) :
    List (Option Char) × Option Begun :=
  match begun with
  | none => first b
  | some p =>
    if p.low ≤ b.toNat ∧ b.toNat ≤ p.high then
      match p.needed with
      | 0 => ([some (Char.ofNat (p.bits * 64 + b.toNat % 64))], none)
      | n + 1 => ([], some ⟨n, 0x80, 0xBF, p.bits * 64 + b.toNat % 64⟩)
    else (none :: (first b).1, (first b).2)

/-- What is read from a state on; a character that was begun and never ended
cannot be read. -/
def decodeFrom : Option Begun → List UInt8 → List (Option Char)
  | none, [] => []
  | some _, [] => [none]
  | begun, b :: bs => (step begun b).1 ++ decodeFrom (step begun b).2 bs

/-- What stands in the bytes, `none` where there is no character. -/
def decode (bs : List UInt8) : List (Option Char) := decodeFrom none bs

/-- The text, if the bytes are UTF-8. -/
def strict (bs : List UInt8) : Option (List Char) := (decode bs).mapM id

/-- The bytes of a text. -/
def encode (cs : List Char) : List UInt8 := cs.flatMap String.utf8EncodeChar

/-- What stands for what cannot be read. -/
def replacement : Char := Char.ofNat 0xFFFD

/-- The text with replacement characters. -/
def lenient (bs : List UInt8) : List Char :=
  (decode bs).map (fun c => c.getD replacement)

theorem strict_eq_some {bs : List UInt8} {cs : List Char} :
    strict bs = some cs ↔ decode bs = cs.map some := by
  rw [strict]
  induction decode bs generalizing cs with
  | nil => cases cs <;> simp
  | cons c rest ih =>
    cases c with
    | none => cases cs <;> simp
    | some c =>
      rw [List.mapM_cons]
      cases hrest : rest.mapM id with
      | none =>
        refine iff_of_false (by simp) (fun h => ?_)
        cases cs with
        | nil => cases h
        | cons d cs =>
          rw [ih.mpr (List.cons.inj h).2] at hrest
          cases hrest
      | some ds =>
        rw [hrest] at ih
        cases cs with
        | nil => simp
        | cons d cs => simp [← ih]

theorem exists_map_some {l : List (Option Char)} (h : none ∉ l) :
    ∃ cs : List Char, l = cs.map some := by
  induction l with
  | nil => exact ⟨[], rfl⟩
  | cons c l ih =>
    obtain ⟨hc, hl⟩ := List.ne_and_not_mem_of_not_mem_cons h
    obtain ⟨cs, rfl⟩ := ih hl
    obtain ⟨d, rfl⟩ := Option.ne_none_iff_exists'.mp (Ne.symm hc)
    exact ⟨d :: cs, rfl⟩

/-- The lenient reader reads what the strict one does. -/
theorem lenient_of_strict {bs : List UInt8} {cs : List Char}
    (h : strict bs = some cs) :
    lenient bs = cs := by
  rw [lenient, strict_eq_some.mp h, List.map_map]
  exact List.map_id _

/-! ## Single bytes

A byte of ASCII is read as itself wherever it stands, also where a character
was begun that is now never ended. All other bytes belong to characters beyond
ASCII, or to none. -/

section Ascii

variable {b : UInt8} {bs : List UInt8} {begun : Option Begun}

/-- What is left where a character was begun that is never ended. -/
def flush (begun : Option Begun) : List (Option Char) :=
  if begun.isSome then [none] else []

/-- What was begun goes on with bytes that are not ASCII, and ends as a
character that is not ASCII either. -/
structure Begun.Ranged (p : Begun) : Prop where
  low : 0x80 ≤ p.low
  high : p.high < 0xC0
  bits : 2 ≤ p.bits * 64 + p.low % 64
  last : p.needed = 0 → 2 ≤ p.bits

/-- At the start nothing is begun. -/
theorem ranged_start : ∀ p, (none : Option Begun) = some p → p.Ranged :=
  fun _ hp => nomatch hp

theorem ranged_of_lead {n : ℕ} {p : Begun} (h : lead n = some p) :
    p.Ranged := by
  rw [lead] at h
  split at h
  next => cases h
  split at h
  next h1 h2 =>
    obtain rfl := Option.some.inj h
    exact ⟨by simp, by simp, by dsimp only; omega,
      fun _ => by dsimp only; omega⟩
  split at h
  next h1 h2 h3 =>
    obtain rfl := Option.some.inj h
    refine ⟨?_, ?_, ?_, fun hlast => absurd hlast (by simp)⟩
    · dsimp only
      split <;> decide
    · dsimp only
      split <;> decide
    · dsimp only
      split <;> omega
  split at h
  next h1 h2 h3 h4 =>
    obtain rfl := Option.some.inj h
    refine ⟨?_, ?_, ?_, fun hlast => absurd hlast (by simp)⟩
    · dsimp only
      split <;> decide
    · dsimp only
      split <;> decide
    · dsimp only
      split <;> omega
  next => cases h

theorem ranged_first {p : Begun} (h : (first b).2 = some p) : p.Ranged := by
  rw [first] at h
  split at h
  · cases h
  split at h
  next hlead =>
    obtain rfl := Option.some.inj h
    exact ranged_of_lead hlead
  next => cases h

/-- The bits of a character grow with each byte. -/
theorem Begun.Ranged.bits_step {p : Begun} (hp : p.Ranged)
    (hlow : p.low ≤ b.toNat)
    (hhigh : b.toNat ≤ p.high) : 2 ≤ p.bits * 64 + b.toNat % 64 := by
  have h1 := hp.low
  have h2 := hp.high
  have h3 := hp.bits
  omega

theorem ranged_step (hbegun : ∀ p, begun = some p → p.Ranged) {p : Begun}
    (h : (step begun b).2 = some p) : p.Ranged := by
  cases begun with
  | none => exact ranged_first h
  | some q =>
    rw [step] at h
    split at h
    next hrange =>
      split at h
      · cases h
      · obtain rfl := Option.some.inj h
        have hbits := (hbegun q rfl).bits_step hrange.1 hrange.2
        exact ⟨le_refl _, by simp, by dsimp only; omega, fun _ => hbits⟩
    next => exact ranged_first h

theorem step_ascii (hbegun : ∀ p, begun = some p → p.Ranged)
    (hb : b.toNat < 0x80) :
    step begun b = (flush begun ++ [some (Char.ofNat b.toNat)], none) := by
  have hfirst : first b = ([some (Char.ofNat b.toNat)], none) := if_pos hb
  cases begun with
  | none => exact hfirst
  | some p =>
    have hlow : 0x80 ≤ p.low := (hbegun p rfl).low
    rw [step, if_neg (by omega), hfirst]
    rfl

theorem decodeFrom_ascii (hbegun : ∀ p, begun = some p → p.Ranged)
    (hb : b.toNat < 0x80) :
    decodeFrom begun (b :: bs)
      = flush begun ++ some (Char.ofNat b.toNat) :: decode bs := by
  rw [decodeFrom, step_ascii hbegun hb, List.append_assoc]
  rfl

theorem decode_ascii (hb : b.toNat < 0x80) :
    decode (b :: bs) = some (Char.ofNat b.toNat) :: decode bs :=
  decodeFrom_ascii ranged_start hb

/-- A byte of ASCII is read wherever it stands. -/
theorem mem_decodeFrom_of_ascii (hbegun : ∀ p, begun = some p → p.Ranged)
    (hb : b.toNat < 0x80) (hmem : b ∈ bs) :
    some (Char.ofNat b.toNat) ∈ decodeFrom begun bs := by
  induction bs generalizing begun with
  | nil => cases hmem
  | cons d bs ih =>
    rcases List.mem_cons.mp hmem with rfl | hmem
    · rw [decodeFrom_ascii hbegun hb]
      exact List.mem_append_right _ List.mem_cons_self
    · rw [decodeFrom]
      exact List.mem_append_right _
        (ih (fun p hp => ranged_step hbegun hp) hmem)

theorem mem_lenient_of_ascii (hb : b.toNat < 0x80) (hmem : b ∈ bs) :
    Char.ofNat b.toNat ∈ lenient bs :=
  List.mem_map.mpr ⟨_, mem_decodeFrom_of_ascii ranged_start hb hmem, rfl⟩

/-- Some bytes stand in no text. -/
theorem none_mem_decodeFrom (hbegun : ∀ p, begun = some p → p.Ranged)
    (hb : 0xF5 ≤ b.toNat) (hmem : b ∈ bs) : none ∈ decodeFrom begun bs := by
  have hfirst : (first b).1 = [none] := by
    rw [first, if_neg (by omega), lead, if_neg (by omega), if_neg (by omega),
      if_neg (by omega), if_neg (by omega)]
  induction bs generalizing begun with
  | nil => cases hmem
  | cons d bs ih =>
    rw [decodeFrom]
    rcases List.mem_cons.mp hmem with rfl | hmem
    · refine List.mem_append_left _ ?_
      cases begun with
      | none => exact hfirst ▸ List.mem_cons_self
      | some p =>
        have hhigh := (hbegun p rfl).high
        rw [step, if_neg (by omega)]
        exact List.mem_cons_self
    · exact List.mem_append_right _
        (ih (fun p hp => ranged_step hbegun hp) hmem)

theorem strict_eq_none (hb : 0xF5 ≤ b.toNat) (hmem : b ∈ bs) :
    strict bs = none := by
  refine Option.eq_none_iff_forall_not_mem.mpr (fun cs hcs => ?_)
  have hnone := none_mem_decodeFrom ranged_start hb hmem
  rw [← decode, strict_eq_some.mp hcs] at hnone
  obtain ⟨c, -, hc⟩ := List.mem_map.mp hnone
  cases hc

/-- The number of the character of a number. -/
theorem toNat_charOfNat {n : ℕ} (h : n < 0xD800) :
    (Char.ofNat n).toNat = n := by
  rw [Char.ofNat, dif_pos (.inl h)]
  rfl

/-- A character beyond ASCII is not the one of a number below. -/
theorem ofNat_ne {x : Char} {n : ℕ} (hx : 0 < x.toNat ∧ x.toNat < 0x80)
    (hn : 0x80 ≤ n) :
    Char.ofNat n ≠ x := by
  rintro rfl
  by_cases hvalid : n.isValidChar
  · rw [Char.ofNat, dif_pos hvalid] at hx
    exact absurd hx.2 (not_lt.mpr hn)
  · rw [Char.ofNat, dif_neg hvalid] at hx
    exact absurd hx.1 (lt_irrefl 0)

variable {x : Char}

/-- A character of ASCII comes from its own byte. -/
theorem toNat_of_mem_first (h : some x ∈ (first b).1) : b.toNat = x.toNat := by
  rw [first] at h
  split at h
  next hb =>
    rw [Option.some.inj (List.mem_singleton.mp h), toNat_charOfNat (by omega)]
  split at h
  next => cases h
  next => cases List.mem_singleton.mp h

variable (hx : 0 < x.toNat ∧ x.toNat < 0x80)
include hx

theorem toNat_of_mem_step (hbegun : ∀ p, begun = some p → p.Ranged)
    (h : some x ∈ (step begun b).1) : b.toNat = x.toNat := by
  cases begun with
  | none => exact toNat_of_mem_first h
  | some p =>
    rw [step] at h
    split at h
    next hrange =>
      split at h
      next hneeded =>
        have hbits := (hbegun p rfl).last hneeded
        exact absurd (Option.some.inj (List.mem_singleton.mp h)).symm
          (ofNat_ne hx (by omega))
      next => cases h
    next =>
      rcases List.mem_cons.mp h with h | h
      · cases h
      · exact toNat_of_mem_first h

/-- Nothing that was begun ends as a character of ASCII. -/
theorem head?_decodeFrom_ne {p : Begun} (hp : p.Ranged) :
    (decodeFrom (some p) bs).head? ≠ some (some x) := by
  induction bs generalizing p with
  | nil => exact fun h => nomatch h
  | cons b bs ih =>
    rw [decodeFrom, step]
    split
    next hrange =>
      split
      next hneeded =>
        have hbits := hp.last hneeded
        exact fun h =>
          ofNat_ne hx (by omega) (Option.some.inj (Option.some.inj h))
      next =>
        have hbits := hp.bits_step hrange.1 hrange.2
        exact ih ⟨le_refl _, by simp, by dsimp only; omega, fun _ => hbits⟩
    next => exact fun h => nomatch h

/-- A text that begins with a character of ASCII begins with its byte. -/
theorem head?_of_decode (h : (decode bs).head? = some (some x)) :
    ∃ b, bs.head? = some b ∧ b.toNat = x.toNat := by
  cases bs with
  | nil => cases h
  | cons b bs =>
    refine ⟨b, rfl, ?_⟩
    rw [decode, decodeFrom, step, first] at h
    split at h
    next hb =>
      rw [← Option.some.inj (Option.some.inj h), toNat_charOfNat (by omega)]
    split at h
    next hlead => exact absurd h (head?_decodeFrom_ne hx (ranged_of_lead hlead))
    next => cases h

end Ascii

/-! ## Beginnings

A file may be cut anywhere, also within a character. What is read of a
beginning is a beginning of what is read, up to the place of the cut, where a
lenient reader has one replacement character. -/

theorem decodeFrom_nil (begun : Option Begun) :
    decodeFrom begun [] = flush begun := by
  cases begun <;> rfl

/-- A beginning of the bytes is read as they are, up to a character that is
cut. -/
theorem decodeFrom_take (begun : Option Begun) (bs : List UInt8) (n : ℕ) :
    ∃ m cut, decodeFrom begun (bs.take n)
      = (decodeFrom begun bs).take m ++ flush cut := by
  induction bs generalizing begun n with
  | nil =>
    refine ⟨0, begun, ?_⟩
    rw [List.take_nil, decodeFrom_nil, List.take_zero, List.nil_append]
  | cons b bs ih =>
    cases n with
    | zero =>
      refine ⟨0, begun, ?_⟩
      rw [List.take_zero, decodeFrom_nil, List.take_zero, List.nil_append]
    | succ n =>
      obtain ⟨m, cut, hm⟩ := ih (step begun b).2 n
      refine ⟨(step begun b).1.length + m, cut, ?_⟩
      rw [List.take_succ_cons, decodeFrom, decodeFrom, hm,
        List.take_length_add_append, List.append_assoc]

/-- A character that is cut becomes one replacement character. -/
theorem lenient_take (bs : List UInt8) (n : ℕ) :
    ∃ m, lenient (bs.take n) = (lenient bs).take m ∨
      lenient (bs.take n) = (lenient bs).take m ++ [replacement] := by
  obtain ⟨m, cut, hm⟩ := decodeFrom_take none bs n
  have hread : lenient (bs.take n)
      = (lenient bs).take m ++ (flush cut).map
        (fun c => c.getD replacement) := by
    rw [lenient, decode, hm, List.map_append, List.map_take]
    rfl
  refine ⟨m, ?_⟩
  cases cut with
  | none => exact .inl (hread.trans (List.append_nil _))
  | some p => exact .inr hread

/-! ## Line ends

The characters that text mode looks at are ASCII, so that it does not matter
whether it works on the bytes or on the characters that they stand for. -/

section Lines

variable {m : TextMode UInt8} {chars : TextMode Char}

/-- The two modes are about the same characters, which are ASCII. -/
structure Matches (m : TextMode UInt8) (chars : TextMode Char) : Prop where
  cr : m.cr.toNat = chars.cr.toNat
  newline : m.newline.toNat = chars.newline.toNat
  endOfFile : m.endOfFile.toNat = chars.endOfFile.toNat
  ascii : ∀ c ∈ [chars.cr, chars.newline, chars.endOfFile],
    0 < c.toNat ∧ c.toNat < 0x80

theorem cr_notMem_flush (begun : Option Begun) :
    (chars.map some (Option.some_injective _)).cr ∉ flush begun := by
  cases begun with
  | none => exact List.not_mem_nil
  | some p => exact fun hmem => nomatch List.mem_singleton.mp hmem

variable (h : Matches m chars)
include h

theorem decodeFrom_newlines {begun : Option Begun}
    (hbegun : ∀ p, begun = some p → p.Ranged)
    (bs : List UInt8) :
    decodeFrom begun (m.newlines bs)
      = (chars.map some (Option.some_injective _)).newlines
        (decodeFrom begun bs) := by
  have hcr := h.ascii chars.cr (by simp)
  have hnewline := h.ascii chars.newline (by simp)
  have hcrChar : Char.ofNat m.cr.toNat = chars.cr := by
    rw [h.cr, Char.ofNat_toNat]
  have hnewlineChar : Char.ofNat m.newline.toNat = chars.newline := by
    rw [h.newline, Char.ofNat_toNat]
  induction bs generalizing begun with
  | nil => cases begun <;> rfl
  | cons c bs ih =>
    by_cases hend : c = m.cr ∧ bs.head? = some m.newline
    · -- the carriage return goes, in the bytes as in the characters
      obtain ⟨rfl, hhead⟩ := hend
      obtain ⟨rest, rfl⟩ : ∃ rest, bs = m.newline :: rest := by
        cases bs with
        | nil => cases hhead
        | cons d rest => exact ⟨rest, by rw [Option.some.inj hhead]⟩
      rw [TextMode.newlines_cr_newline, ih hbegun,
        decodeFrom_ascii hbegun (h.newline ▸ hnewline.2),
        decodeFrom_ascii hbegun (h.cr ▸ hcr.2),
        decode_ascii (h.newline ▸ hnewline.2),
        hcrChar, hnewlineChar, TextMode.newlines_append (cr_notMem_flush _),
        TextMode.newlines_append (cr_notMem_flush _)]
      exact congrArg _ TextMode.newlines_cr_newline.symm
    · have hcons : m.newlines (c :: bs) = c :: m.newlines bs :=
        TextMode.newlines_cons (fun hc hhead => hend ⟨hc, hhead⟩)
      rw [hcons, decodeFrom, decodeFrom, ih (fun p hp => ranged_step hbegun hp)]
      by_cases hc : c = m.cr
      · subst hc
        rw [step_ascii hbegun (h.cr ▸ hcr.2), hcrChar, List.append_assoc,
          List.append_assoc,
          TextMode.newlines_append (cr_notMem_flush _), List.singleton_append,
          List.singleton_append]
        refine congrArg _ (TextMode.newlines_cons (fun _ hhead => ?_)).symm
        obtain ⟨d, hd, hnat⟩ := head?_of_decode hnewline hhead
        rw [← h.newline] at hnat
        exact hend ⟨rfl, by rw [hd, UInt8.toNat_inj.mp hnat]⟩
      · refine (TextMode.newlines_append (fun hmem => hc ?_)).symm
        have hnat := toNat_of_mem_step hcr hbegun hmem
        rw [← h.cr] at hnat
        exact UInt8.toNat_inj.mp hnat

/-- **In text mode** a file is UTF-8 exactly where it is without text mode, and
what is read are the lines of the text. -/
theorem strict_newlines (bs : List UInt8) :
    strict (m.newlines bs) = (strict bs).map chars.newlines := by
  have hlines : decode (m.newlines bs) = _ :=
    decodeFrom_newlines h ranged_start bs
  cases hcs : strict bs with
  | some cs =>
    rw [Option.map_some, strict_eq_some, hlines, ← TextMode.newlines_map]
    exact congrArg _ (strict_eq_some.mp hcs)
  | none =>
    refine Option.eq_none_iff_forall_not_mem.mpr (fun cs hmem => ?_)
    rw [Option.mem_def, strict_eq_some, hlines] at hmem
    have hsome : none ∉ decode bs := by
      intro hnone
      have hkept := TextMode.mem_newlines
        (Option.some_ne_none _).symm hnone
          (m := chars.map some (Option.some_injective _))
      rw [show decodeFrom none bs = decode bs from rfl] at hmem
      rw [hmem] at hkept
      obtain ⟨c, -, hc⟩ := List.mem_map.mp hkept
      cases hc
    obtain ⟨ds, hds⟩ := exists_map_some hsome
    rw [strict_eq_some.mpr hds] at hcs
    cases hcs

end Lines

/-! ## What was encoded

The encoder is the one of the library, and it writes one to four bytes for a
character. Each of the four cases is read back byte by byte, with arithmetic
on the bits that have been read so far. -/

section Encoded

variable {b : UInt8} {bs : List UInt8} {n low high bits : ℕ}

theorem decodeFrom_lead {p : Begun} (h : lead b.toNat = some p) :
    decodeFrom none (b :: bs) = decodeFrom (some p) bs := by
  have hb : ¬ b.toNat < 0x80 := by
    intro hb
    rw [lead, if_pos (by omega)] at h
    cases h
  rw [decodeFrom, step, first, if_neg hb, h]
  rfl

theorem decodeFrom_more (hlow : low ≤ b.toNat) (hhigh : b.toNat ≤ high) :
    decodeFrom (some ⟨n + 1, low, high, bits⟩) (b :: bs)
      = decodeFrom (some ⟨n, 0x80, 0xBF, bits * 64 + b.toNat % 64⟩) bs := by
  rw [decodeFrom, step, if_pos ⟨hlow, hhigh⟩]
  rfl

theorem decodeFrom_last (hlow : low ≤ b.toNat) (hhigh : b.toNat ≤ high) :
    decodeFrom (some ⟨0, low, high, bits⟩) (b :: bs)
      = some (Char.ofNat (bits * 64 + b.toNat % 64)) :: decode bs := by
  rw [decodeFrom, step, if_pos ⟨hlow, hhigh⟩]
  rfl

/-- The first byte of a character of two, three or four bytes. -/
theorem lead_two {x : ℕ} (h : 2 ≤ x) (hx : x < 32) :
    lead (0xC0 + x) = some ⟨0, 0x80, 0xBF, x⟩ := by
  rw [lead, if_neg (by omega), if_pos (by omega)]
  have hbits : (0xC0 + x) % 32 = x := by omega
  rw [hbits]

theorem lead_three {x : ℕ} (hx : x < 16) :
    lead (0xE0 + x)
      = some ⟨1, if x = 0 then 0xA0 else 0x80,
        if x = 13 then 0x9F else 0xBF, x⟩ := by
  rw [lead, if_neg (by omega), if_neg (by omega), if_pos (by omega)]
  have hbits : (0xE0 + x) % 16 = x := by omega
  rw [hbits]
  congr 2
  · exact if_congr (by omega) rfl rfl
  · exact if_congr (by omega) rfl rfl

theorem lead_four {x : ℕ} (hx : x < 5) :
    lead (0xF0 + x)
      = some ⟨2, if x = 0 then 0x90 else 0x80,
        if x = 4 then 0x8F else 0xBF, x⟩ := by
  rw [lead, if_neg (by omega), if_neg (by omega), if_neg (by omega),
    if_pos (by omega)]
  have hbits : (0xF0 + x) % 8 = x := by omega
  rw [hbits]
  congr 2
  · exact if_congr (by omega) rfl rfl
  · exact if_congr (by omega) rfl rfl

theorem toNat_ofNat {x : ℕ} (h : x < 256) : (UInt8.ofNat x).toNat = x :=
  UInt8.toNat_ofNat_of_lt' h

/-- A byte that is not the first of its character. -/
theorem toNat_tail (x : ℕ) :
    (UInt8.ofNat (x % 0x40 + 0x80)).toNat = x % 0x40 + 0x80 :=
  toNat_ofNat (by omega)

/-- **One character is read back.** The automaton is between two characters
before and after it, which is what lets texts be read one character at a
time. -/
theorem decodeFrom_utf8EncodeChar (c : Char) :
    decodeFrom none (String.utf8EncodeChar c ++ bs) = some c :: decode bs := by
  have hvalid : c.toNat < 0xD800 ∨ 0xDFFF < c.toNat ∧ c.toNat < 0x110000 :=
    c.valid
  have hback : ∀ n, n = c.toNat → Char.ofNat n = c :=
    fun n hn => hn ▸ Char.ofNat_toNat c
  rw [String.utf8EncodeChar]
  change c.val.toNat < 0xD800 ∨ 0xDFFF < c.val.toNat ∧
    c.val.toNat < 0x110000 at hvalid
  change ∀ n, n = c.val.toNat → Char.ofNat n = c at hback
  generalize c.val.toNat = v at hvalid hback
  -- one byte, two, three and four, as the encoder tells them apart
  split
  next h1 =>
    have hb : (UInt8.ofNat v).toNat = v := toNat_ofNat (by omega)
    have hascii := @decode_ascii _ bs (hb ▸ Nat.lt_succ_of_le h1)
    rw [hb, hback v rfl] at hascii
    exact hascii
  split
  next h1 h2 =>
    have hb : (UInt8.ofNat (v / 64 % 0x20 + 0xc0)).toNat = 0xC0 + v / 64 := by
      rw [toNat_ofNat (by omega)]
      omega
    have hlead := lead_two (x := v / 64) (by omega) (by omega)
    rw [← hb] at hlead
    rw [List.cons_append, List.cons_append, List.nil_append,
      decodeFrom_lead hlead,
      decodeFrom_last (by rw [toNat_tail]; omega) (by rw [toNat_tail]; omega),
      toNat_tail, hback _ (by omega)]
  split
  next h1 h2 h3 =>
    have hb : (UInt8.ofNat (v / 4096 % 0x10 + 0xe0)).toNat
        = 0xE0 + v / 4096 := by
      rw [toNat_ofNat (by omega)]
      omega
    have hlead := lead_three (x := v / 4096) (by omega)
    rw [← hb] at hlead
    rw [List.cons_append, List.cons_append, List.cons_append, List.nil_append,
      decodeFrom_lead hlead,
      -- the second byte is where an overlong form or a surrogate would show
      decodeFrom_more (by rw [toNat_tail]; split <;> omega)
        (by rw [toNat_tail]; split <;> omega),
      decodeFrom_last (by rw [toNat_tail]; omega) (by rw [toNat_tail]; omega),
      toNat_tail, toNat_tail, hback _ (by omega)]
  next h1 h2 h3 =>
    have hb : (UInt8.ofNat (v / 262144 % 0x08 + 0xf0)).toNat
        = 0xF0 + v / 262144 := by
      rw [toNat_ofNat (by omega)]
      omega
    have hlead := lead_four (x := v / 262144) (by omega)
    rw [← hb] at hlead
    rw [List.cons_append, List.cons_append, List.cons_append, List.cons_append,
      List.nil_append, decodeFrom_lead hlead,
      decodeFrom_more (by rw [toNat_tail]; split <;> omega)
        (by rw [toNat_tail]; split <;> omega),
      decodeFrom_more (by rw [toNat_tail]; omega) (by rw [toNat_tail]; omega),
      decodeFrom_last (by rw [toNat_tail]; omega) (by rw [toNat_tail]; omega),
      toNat_tail, toNat_tail, toNat_tail, hback _ (by omega)]

end Encoded

/-- **What was encoded is read back**, by the strict reader and by the lenient
one. The two readers differ only where bytes are found that no character is
encoded as. -/
theorem strict_encode (cs : List Char) : strict (encode cs) = some cs := by
  rw [strict_eq_some]
  induction cs with
  | nil => rfl
  | cons c cs ih =>
    rw [encode, List.flatMap_cons, decode, decodeFrom_utf8EncodeChar]
    exact congrArg (some c :: ·) ih

theorem lenient_encode (cs : List Char) : lenient (encode cs) = cs :=
  lenient_of_strict (strict_encode cs)

/-! ## What is never lost

A byte is either read at once or begins a character, and a character that was
begun is read or replaced. So there is something in the text wherever there
were bytes. -/

/-- A byte is read, or it begins a character. -/
theorem step_reads_or_begins (begun : Option Begun) (b : UInt8) :
    (step begun b).1 ≠ [] ∨ (step begun b).2 ≠ none := by
  have hfirst : (first b).1 ≠ [] ∨ (first b).2 ≠ none := by
    unfold first
    split
    next => exact .inl (List.cons_ne_nil _ _)
    next =>
      split
      next => exact .inr (Option.some_ne_none _)
      next => exact .inl (List.cons_ne_nil _ _)
  unfold step
  split
  next => exact hfirst
  next p =>
    split
    next =>
      split
      next => exact .inl (List.cons_ne_nil _ _)
      next => exact .inr (Option.some_ne_none _)
    next => exact .inl (List.cons_ne_nil _ _)

theorem decodeFrom_ne_nil {begun : Option Begun} {bs : List UInt8}
    (h : begun ≠ none ∨ bs ≠ []) : decodeFrom begun bs ≠ [] := by
  induction bs generalizing begun with
  | nil =>
    cases begun with
    | none => exact (h.elim (· rfl) (· rfl)).elim
    | some p => exact List.cons_ne_nil _ _
  | cons b bs ih =>
    rw [decodeFrom]
    rcases step_reads_or_begins begun b with hreads | hbegins
    · exact List.append_ne_nil_of_left_ne_nil hreads _
    · exact List.append_ne_nil_of_right_ne_nil _ (ih (.inl hbegins))

/-- Something is read wherever there are bytes. -/
theorem lenient_ne_nil {bs : List UInt8} (h : bs ≠ []) : lenient bs ≠ [] :=
  fun hnil => decodeFrom_ne_nil (.inr h) (List.map_eq_nil_iff.mp hnil)

end Utf8
