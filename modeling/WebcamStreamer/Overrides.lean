import WebcamStreamer.CameraProbe
import Mathlib.Data.List.TakeWhile

/-!
# An override file is read back as it was written

`SaveOverride` reads the file, overlays the update and writes `key=value`
lines; `LoadOverride` reads them back. Whatever the file held before, what is
read from it is `Valid`: a mode that has a name, and numbers that fit into an
`int`. Such an override survives being written and read
(`CameraOverride.ofText_toText`), for every camera whose name can stand in such
a file: it is on one line, and has no Control-Z, which would end the file in
its first line and hide every field behind it.
-/

namespace WebcamStreamer

/-! ## Numbers

A number is written in decimal and read by `std::stoi`, which skips blanks,
takes a sign and stops at the first character that is no digit. Written
numbers have none of this, so that they are read back whenever they are in the
range of an `int`. -/

/-- The number is an `int`. -/
def IsInt32 (n : ℤ) : Prop := -2 ^ 31 ≤ n ∧ n < 2 ^ 31

instance (n : ℤ) : Decidable (IsInt32 n) := inferInstanceAs (Decidable (_ ∧ _))

theorem isInt32_of_stoi {t : Text} {n : ℤ} (h : stoi t = some n) :
    IsInt32 n := by
  unfold stoi at h
  simpa [IsInt32] using (Option.filter_eq_some_iff.mp h).2

theorem leadingNumber_toDigits (n : ℕ) :
    leadingNumber (Nat.toDigits 10 n) = some n := by
  have hdigits : (Nat.toDigits 10 n).takeWhile Char.isDigit
      = Nat.toDigits 10 n :=
    List.takeWhile_eq_self_iff.mpr
      (fun c hc => Nat.isDigit_of_mem_toDigits (by omega) (by omega) hc)
  have hvalue : digitsValue (Nat.toDigits 10 n) = n := by
    unfold digitsValue
    rw [← Nat.ofDigitChars_eq_foldl]
    exact Nat.ofDigitChars_ten_toDigits
  unfold leadingNumber
  rw [hdigits]
  split
  next hnil => exact absurd hnil Nat.toDigits_ne_nil
  next ds _ => rw [hvalue]

theorem isSpace_of_isDigit {c : Char} (h : c.isDigit = true) :
    isSpace c = false := by
  simp only [isSpace, Bool.or_eq_false_iff, decide_eq_false_iff_not]
  refine ⟨⟨⟨⟨⟨?_, ?_⟩, ?_⟩, ?_⟩, ?_⟩, ?_⟩
  all_goals
    rintro rfl
    revert h
    decide

/-- A text of digits has neither spaces nor a sign to skip. -/
theorem stoi_eq_filter {ds : Text} {n : ℕ} (hds : ∀ c ∈ ds, c.isDigit = true)
    (hn : leadingNumber ds = some n) :
    stoi ds = (some (n : ℤ)).filter
      (fun n => decide (-2 ^ 31 ≤ n ∧ n < 2 ^ 31)) := by
  have hskip : ds.dropWhile isSpace = ds := by
    cases ds with
    | nil => rfl
    | cons c cs => simp [isSpace_of_isDigit (hds c List.mem_cons_self)]
  unfold stoi
  rw [hskip]
  split
  next rest => exact absurd (hds '-' List.mem_cons_self) (by decide)
  next rest => exact absurd (hds '+' List.mem_cons_self) (by decide)
  next => rw [hn]; rfl

theorem stoi_of_isDigit {ds : Text} {n : ℕ} (hds : ∀ c ∈ ds, c.isDigit = true)
    (hn : leadingNumber ds = some n) (h : IsInt32 n) :
    stoi ds = some (n : ℤ) := by
  rw [stoi_eq_filter hds hn]
  exact Option.filter_eq_some_iff.mpr ⟨rfl, by simpa [IsInt32] using h⟩

/-- Digits are converted if their number is an `int`. -/
theorem stoi_isSome_iff {ds : Text} (hne : ds ≠ [])
    (hds : ∀ c ∈ ds, c.isDigit = true) :
    (stoi ds).isSome = true ↔ digitsValue ds < 2 ^ 31 := by
  have hn : leadingNumber ds = some (digitsValue ds) := by
    unfold leadingNumber
    rw [List.takeWhile_eq_self_iff.mpr hds]
    cases ds with
    | nil => exact absurd rfl hne
    | cons c cs => rfl
  rw [stoi_eq_filter hds hn, Option.isSome_filter, Option.any_some,
    decide_eq_true_eq]
  omega

theorem isDigit_of_mem_toString {n : ℤ} {c : Char}
    (hc : c ∈ (toString n).toList) :
    c.isDigit = true ∨ c = '-' := by
  rw [Int.toString_eq_repr] at hc
  cases n with
  | ofNat m =>
    have hc' : c ∈ Nat.toDigits 10 m := Nat.toList_repr ▸ hc
    exact .inl (Nat.isDigit_of_mem_toDigits (by omega) (by omega) hc')
  | negSucc m =>
    have hc' : c ∈ "-".toList ++ Nat.toDigits 10 (m + 1) := by
      rw [← Nat.toList_repr, ← String.toList_append]
      exact hc
    rcases List.mem_append.mp hc' with hminus | hdigit
    · exact .inr (List.mem_singleton.mp hminus)
    · exact .inl (Nat.isDigit_of_mem_toDigits (by omega) (by omega) hdigit)

/-- A number that was written is read back. -/
theorem stoi_toString {n : ℤ} (h : IsInt32 n) :
    stoi (toString n).toList = some n := by
  rw [Int.toString_eq_repr]
  cases n with
  | ofNat m =>
    show stoi m.repr.toList = _
    rw [Nat.toList_repr]
    exact stoi_of_isDigit (fun c hc =>
      Nat.isDigit_of_mem_toDigits (by omega) (by omega) hc)
      (leadingNumber_toDigits m) h
  | negSucc m =>
    show stoi ("-" ++ (m + 1).repr).toList = _
    rw [String.toList_append, Nat.toList_repr]
    show ((leadingNumber (Nat.toDigits 10 (m + 1))).map
      (fun n => -(n : ℤ))).filter _ = _
    rw [leadingNumber_toDigits]
    exact Option.filter_eq_some_iff.mpr ⟨rfl, by simpa [IsInt32] using h⟩

/-! ## Lines

A line is found again in the text that has each line with its newline, and its
key ends at the first `=`. The value may contain anything but a newline; what
matters is that the keys of the file contain neither. -/

/-- A line is what stands before its newline. -/
theorem getlines_append {l : Text} (rest : Text) (h : '\n' ∉ l) :
    getlines (l ++ '\n' :: rest) = l :: getlines rest := by
  induction l with
  | nil => rfl
  | cons c l ih =>
    obtain ⟨hc, hl⟩ := not_or.mp (mt List.mem_cons.mpr h)
    rw [List.cons_append, getlines, ih hl]
    exact fun heq => hc heq.symm

/-- A text that is not empty is its last line. -/
theorem getlines_of_notMem {l : Text} (h : '\n' ∉ l) (hne : l ≠ []) :
    getlines l = [l] := by
  induction l with
  | nil => exact absurd rfl hne
  | cons c l ih =>
    obtain ⟨hc, hl⟩ := not_or.mp (mt List.mem_cons.mpr h)
    rw [getlines]
    · cases l with
      | nil => rfl
      | cons d l => rw [ih hl (List.cons_ne_nil d l)]
    · exact fun heq => hc heq.symm

/-- Lines are found again in the text that has each with its newline. -/
theorem getlines_flatMap {ls : List Text} (h : ∀ l ∈ ls, '\n' ∉ l) :
    getlines (ls.flatMap (· ++ ['\n'])) = ls := by
  induction ls with
  | nil => rfl
  | cons l ls ih =>
    obtain ⟨hl, hls⟩ := List.forall_mem_cons.mp h
    rw [List.flatMap_cons, List.append_assoc, List.singleton_append,
      getlines_append _ hl, ih hls]

theorem splitAtEq_append {k : Text} (v : Text) (h : '=' ∉ k) :
    splitAtEq (k ++ '=' :: v) = some (k, v) := by
  induction k with
  | nil => rfl
  | cons c k ih =>
    obtain ⟨hc, hk⟩ := not_or.mp (mt List.mem_cons.mpr h)
    rw [List.cons_append, splitAtEq, if_neg (fun heq => hc heq.symm), ih hk]
    rfl

theorem stripCr_of_notMem {l : Text} (h : '\r' ∉ l) : stripCr l = l :=
  if_neg (fun hlast => h (List.mem_of_getLast? hlast))

namespace CameraOverride

/-- A written line is read as its key and its value. -/
theorem readLine_line {o : CameraOverride} {key value : String}
    (hkey : '=' ∉ key.toList)
    (hcr : '\r' ∉ key.toList ++ '=' :: value.toList) :
    o.readLine (key.toList ++ '=' :: value.toList)
      = o.readField key.toList value.toList := by
  unfold readLine
  rw [stripCr_of_notMem hcr, splitAtEq_append _ hkey]

/-- The line with the camera's name changes nothing, whatever the name is. -/
theorem readLine_camera (o : CameraOverride) (name : Text) :
    o.readLine ("camera".toList ++ '=' :: name) = o := by
  have hsplit : ∃ v, splitAtEq (stripCr ("camera".toList ++ '=' :: name))
      = some ("camera".toList, v) := by
    unfold stripCr
    split
    next =>
      cases name with
      | nil => exact absurd ‹_› (by decide)
      | cons c cs => exact ⟨(c :: cs).dropLast, rfl⟩
    next => exact ⟨name, rfl⟩
  obtain ⟨v, hv⟩ := hsplit
  unfold readLine
  rw [hv]
  rfl

theorem readField_mode (o : CameraOverride) {m : Mode} (h : m ≠ .unknown) :
    o.readField "mode".toList (modeName m).toList = { o with
      mode := some m } := by
  unfold readField
  rw [if_pos rfl, String.ofList_toList, modeFromString_modeName]
  cases m with
  | unknown => exact absurd rfl h
  | _ => rfl

theorem readField_width (o : CameraOverride) {v : Text} {n : ℤ}
    (h : stoi v = some n) :
    o.readField "width".toList v = { o with width := some n } := by
  unfold readField
  rw [if_neg (by decide), if_pos rfl, h]

theorem readField_height (o : CameraOverride) {v : Text} {n : ℤ}
    (h : stoi v = some n) :
    o.readField "height".toList v = { o with height := some n } := by
  unfold readField
  rw [if_neg (by decide), if_neg (by decide), if_pos rfl, h]

theorem readField_fps (o : CameraOverride) {v : Text} {n : ℤ}
    (h : stoi v = some n) :
    o.readField "fps".toList v = { o with fps := some n } := by
  unfold readField
  rw [if_neg (by decide), if_neg (by decide), if_neg (by decide), if_pos rfl, h]

/-! ## Valid overrides

Not every override in memory can be written and read back: its numbers have to
be in range and its mode has to have a name. What was read from any file at
all is valid, and overlaying valid overrides gives a valid one. -/

/-- What can be read from a file: a mode with a name, and numbers that are an
`int`. -/
structure Valid (o : CameraOverride) : Prop where
  mode : o.mode ≠ some .unknown
  width : ∀ n, o.width = some n → IsInt32 n
  height : ∀ n, o.height = some n → IsInt32 n
  fps : ∀ n, o.fps = some n → IsInt32 n

theorem valid_empty : ({} : CameraOverride).Valid := by
  constructor <;> simp

theorem Valid.readField {o : CameraOverride} (h : o.Valid) (key value : Text) :
    (o.readField key value).Valid := by
  unfold CameraOverride.readField
  split
  next =>
    split
    next => exact h
    next m hm => exact { h with mode := fun heq => hm (Option.some.inj heq) }
  next =>
    split
    next =>
      split
      next n hn =>
        exact { h with
          width := fun m hm => Option.some.inj hm ▸ isInt32_of_stoi hn }
      next => exact h
    next =>
      split
      next =>
        split
        next n hn =>
          exact { h with
            height := fun m hm => Option.some.inj hm ▸ isInt32_of_stoi hn }
        next => exact h
      next =>
        split
        next =>
          split
          next n hn =>
            exact { h with
              fps := fun m hm => Option.some.inj hm ▸ isInt32_of_stoi hn }
          next => exact h
        next => repeat' split
                all_goals exact { h with }

/-- Whatever a file holds, the override read from it is valid. -/
theorem valid_ofText (file : Text) : (ofText file).Valid := by
  have hfold : ∀ (lines : List Text) (o : CameraOverride), o.Valid →
      (lines.foldl readLine o).Valid := by
    intro lines
    induction lines with
    | nil => exact fun _ ho => ho
    | cons line lines ih =>
      refine fun o ho => ih _ ?_
      unfold readLine
      split
      next key value _ => exact ho.readField key value
      next => exact ho
  exact hfold _ _ valid_empty

theorem Valid.overlay {old update : CameraOverride} (ho : old.Valid)
    (hu : update.Valid) :
    (old.overlay update).Valid where
  mode h := (Option.or_eq_some_iff.mp h).elim hu.mode (fun h => ho.mode h.2)
  width n h :=
    (Option.or_eq_some_iff.mp h).elim (hu.width n) (fun h => ho.width n h.2)
  height n h :=
    (Option.or_eq_some_iff.mp h).elim (hu.height n) (fun h => ho.height n h.2)
  fps n h :=
    (Option.or_eq_some_iff.mp h).elim (hu.fps n) (fun h => ho.fps n h.2)

/-! ## The round trip

The fields that are absent have no line, and those that are there have one
each, in a fixed order. Reading goes line by line from an empty override, so
that each line sets its field and the others keep theirs. -/

/-- A value that a line can hold: it has no line break. -/
def OneLine (value : String) : Prop := '\n' ∉ value.toList ∧ '\r' ∉ value.toList

theorem oneLine_toString (n : ℤ) : OneLine (toString n) := by
  constructor
  · exact fun hmem => absurd (isDigit_of_mem_toString hmem) (by decide)
  · exact fun hmem => absurd (isDigit_of_mem_toString hmem) (by decide)

/-- A field that the file has or has not: reading the rest goes on with what the
field sets. -/
theorem foldl_field {α : Type} {o : CameraOverride} {key : String}
    {opt : Option α}
    {shown : α → String} (set : Option α → CameraOverride) (rest : Text)
    (hkey : '=' ∉ key.toList ∧ OneLine key) (hshown : ∀ a, OneLine (shown a))
    (hnone : set none = o)
    (hsome : ∀ a, opt = some a →
      o.readField key.toList (shown a).toList = set (some a)) :
    (getlines (opt.elim [] (fun a => line key (shown a)) ++ rest)).foldl
      readLine o
      = (getlines rest).foldl readLine (set opt) := by
  cases opt with
  | none =>
    rw [hnone]
    rfl
  | some a =>
    obtain ⟨heq, hkn, hkr⟩ := hkey
    obtain ⟨hsn, hsr⟩ := hshown a
    have hline : line key (shown a) ++ rest
        = (key.toList ++ '=' :: (shown a).toList) ++ '\n' :: rest := by
      simp [line]
    rw [Option.elim_some, hline, getlines_append rest (by simp [hkn, hsn]),
      List.foldl_cons,
      readLine_line heq (by simp [hkr, hsr]), hsome a rfl]

theorem foldl_camera {name : String} (o : CameraOverride) (rest : Text)
    (hname : '\n' ∉ name.toList) :
    (getlines (line "camera" name ++ rest)).foldl readLine o
      = (getlines rest).foldl readLine o := by
  have hline : line "camera" name ++ rest
      = ("camera".toList ++ '=' :: name.toList) ++ '\n' :: rest := by
    simp [line]
  rw [hline, getlines_append rest (by simpa using hname), List.foldl_cons,
    readLine_camera]

/-- The lines that are inserted say what they were made of. -/
theorem ofLines_inserted {o : CameraOverride} {name : String} (h : o.Valid)
    (hname : '\n' ∉ name.toList) : ofLines (o.inserted name) = o := by
  have hkey : ∀ key ∈ ["mode", "width", "height", "fps", "enabled"],
      '=' ∉ key.toList ∧ OneLine key := by
    unfold OneLine
    decide
  have hmode : ∀ m, OneLine (modeName m) :=
    fun m => by cases m <;> (unfold OneLine; decide)
  have henabled : ∀ b : Bool, OneLine (if b then "true" else "false") :=
    fun b => by
    cases b <;> (unfold OneLine; decide)
  unfold ofLines inserted
  simp only [List.append_assoc]
  rw [← List.append_nil (o.enabled.elim _ _), foldl_camera _ _ hname,
    foldl_field (fun m => { mode := m }) _ (hkey "mode" (by simp)) hmode rfl ?_,
    foldl_field (fun n => { mode := o.mode, width := n }) _
      (hkey "width" (by simp))
      oneLine_toString rfl ?_,
    foldl_field (fun n => { mode := o.mode, width := o.width, height := n }) _
      (hkey "height" (by simp)) oneLine_toString rfl ?_,
    foldl_field (fun n =>
      { mode := o.mode, width := o.width, height := o.height, fps := n }) _
      (hkey "fps" (by simp)) oneLine_toString rfl ?_,
    foldl_field (fun b => { o with
      enabled := b }) _ (hkey "enabled" (by simp)) henabled rfl ?_]
  · rfl
  · intro b _
    cases b <;> rfl
  · exact fun n hn => readField_fps _ (stoi_toString (h.fps n hn))
  · exact fun n hn => readField_height _ (stoi_toString (h.height n hn))
  · exact fun n hn => readField_width _ (stoi_toString (h.width n hn))
  · exact fun m hm => readField_mode _ (fun heq => h.mode (heq ▸ hm))

end CameraOverride

/-! ### The character that ends a file

In text mode a file ends at its first Control-Z. Numbers, modes and flags
never contain one; the name of the camera, which stands on the first line,
may. -/

/-- A name that can stand in an override file: on one line, and with no
character that ends the file. -/
structure Storable (name : String) : Prop where
  newline : '\n' ∉ name.toList
  endOfFile : fileMode.endOfFile ∉ name.toList

namespace CameraOverride

theorem endOfFile_notMem_line {key value : String}
    (hkey : fileMode.endOfFile ∉ key.toList)
    (hvalue : fileMode.endOfFile ∉ value.toList) :
    fileMode.endOfFile ∉ line key value := by
  have hequals : fileMode.endOfFile ≠ '=' := by decide
  have hnewline : fileMode.endOfFile ≠ '\n' := by decide
  simp [line, hkey, hvalue, hequals, hnewline]

theorem endOfFile_notMem_field {α : Type} {opt : Option α} {key : String}
    {shown : α → String} (hkey : fileMode.endOfFile ∉ key.toList)
    (hshown : ∀ a, fileMode.endOfFile ∉ (shown a).toList) :
    fileMode.endOfFile ∉ opt.elim [] (fun a => line key (shown a)) := by
  cases opt with
  | none => exact List.not_mem_nil
  | some a => exact endOfFile_notMem_line hkey (hshown a)

/-- Behind the line with the name there is no character that ends the file. -/
theorem exists_inserted_eq (o : CameraOverride) (name : String) :
    ∃ rest, o.inserted name = line "camera" name ++ rest ∧
      fileMode.endOfFile ∉ rest := by
  have hnumber : ∀ n : ℤ, fileMode.endOfFile ∉ (toString n).toList :=
    fun n hmem => absurd (isDigit_of_mem_toString hmem) (by decide)
  have hmode : ∀ m, fileMode.endOfFile ∉ (modeName m).toList :=
    fun m => by cases m <;> decide
  have henabled : ∀ b : Bool,
      fileMode.endOfFile ∉ (if b then "true" else "false").toList :=
    fun b => by cases b <;> decide
  refine ⟨_, by rw [inserted]; simp only [List.append_assoc]; rfl, ?_⟩
  simp only [List.mem_append, not_or]
  exact ⟨endOfFile_notMem_field (by decide) hmode,
    endOfFile_notMem_field (by decide) hnumber,
    endOfFile_notMem_field (by decide) hnumber,
    endOfFile_notMem_field (by decide) hnumber,
    endOfFile_notMem_field (by decide) henabled⟩

/-- A name without that character leaves the lines without it. -/
theorem endOfFile_notMem_inserted (o : CameraOverride) {name : String}
    (h : fileMode.endOfFile ∉ name.toList) :
    fileMode.endOfFile ∉ o.inserted name := by
  obtain ⟨rest, heq, hrest⟩ := o.exists_inserted_eq name
  rw [heq, List.mem_append, not_or]
  exact ⟨endOfFile_notMem_line (by decide) h, hrest⟩

/-- **What `SaveOverride` writes, `LoadOverride` reads back**, for every name
that can stand in the file. The name is the value of the first line, which no
field is read from. -/
theorem ofText_toText {o : CameraOverride} {name : String} (h : o.Valid)
    (hname : Storable name) : ofText (o.toText name) = o := by
  rw [ofText, toText, TextMode.read_write_of_notMem
    (o.endOfFile_notMem_inserted hname.endOfFile)]
  exact ofLines_inserted h hname.newline

/-- A name with that character ends the file itself. -/
theorem read_toText_of_mem (o : CameraOverride) {name : String}
    (h : fileMode.endOfFile ∈ name.toList) :
    fileMode.read (o.toText name) = "camera".toList ++
      '=' :: name.toList.takeWhile (fun c => c ≠ fileMode.endOfFile) := by
  obtain ⟨rest, heq, -⟩ := o.exists_inserted_eq name
  have hline : line "camera" name ++ rest
      = "camera=".toList ++ (name.toList ++ '\n' :: rest) := by
    simp [line]
  have hname : ∀ tail : Text,
      (name.toList ++ tail).takeWhile (fun c => c ≠ fileMode.endOfFile)
        = name.toList.takeWhile (fun c => c ≠ fileMode.endOfFile) := by
    intro tail
    rw [List.takeWhile_append, if_neg]
    intro hlen
    have hall := List.takeWhile_eq_self_iff.mp
      ((List.takeWhile_prefix _).eq_of_length hlen) _ h
    simp at hall
  rw [toText, TextMode.read_write, heq, hline,
    List.takeWhile_append_of_pos
      (List.all_eq_true.mp (by decide)), hname]
  rfl

/-- Nothing that is saved under such a name is loaded again. -/
theorem ofText_toText_of_mem (o : CameraOverride) {name : String}
    (hname : '\n' ∉ name.toList) (h : fileMode.endOfFile ∈ name.toList) :
    ofText (o.toText name) = {} := by
  have hread : '\n' ∉ "camera".toList ++
      '=' :: name.toList.takeWhile (fun c => c ≠ fileMode.endOfFile) := by
    have htake : '\n' ∉ name.toList.takeWhile
        (fun c => c ≠ fileMode.endOfFile) :=
      fun hmem => hname ((List.takeWhile_prefix _).subset hmem)
    simpa using htake
  have hlines : getlines ("camera".toList ++
        '=' :: name.toList.takeWhile (fun c => c ≠ fileMode.endOfFile))
      = ["camera".toList ++
        '=' :: name.toList.takeWhile (fun c => c ≠ fileMode.endOfFile)] :=
    getlines_of_notMem hread (by simp)
  rw [ofText, o.read_toText_of_mem h, ofLines, hlines, List.foldl_cons,
    List.foldl_nil, readLine_camera]

end CameraOverride

/-- What a file says about a camera; no file says nothing. -/
def storedOverride (file : Option Text) : CameraOverride :=
  (file.map CameraOverride.ofText).getD {}

@[simp]
theorem storedOverride_some (t : Text) :
    storedOverride (some t) = CameraOverride.ofText t := rfl

theorem valid_storedOverride (file : Option Text) :
    (storedOverride file).Valid := by
  cases file with
  | none => exact CameraOverride.valid_empty
  | some t => exact CameraOverride.valid_ofText t

theorem loadOverride_of_readable {ops : FileOps}
    (hthrow : ops.existsThrows = none)
    (hread : ops.readable = true) (file : Option Text) :
    loadOverride ops file = .ok (file.map CameraOverride.ofText) := by
  simp [loadOverride, hthrow, hread]

theorem loadOverride_of_succeeds {ops : FileOps} (h : ops.Succeeds)
    (file : Option Text) :
    loadOverride ops file = .ok (file.map CameraOverride.ofText) :=
  loadOverride_of_readable h.1 h.2.1 file

/-- What a save that succeeds writes. -/
theorem saveOverride_eq {ops : FileOps} (h : ops.Succeeds) (file : Option Text)
    (name : String)
    (update : CameraOverride) :
    saveOverride ops file name update
      = .ok (true,
        some (((storedOverride file).overlay update).toText name)) := by
  unfold saveOverride
  rw [loadOverride_of_succeeds h, h.2.2]
  rfl

/-- **A save that succeeds** leaves the fields of the update over the ones
that were stored. What is stored is read again first, so that fields the
update leaves open stay as they were. -/
theorem saveOverride_of_succeeds {ops : FileOps} (h : ops.Succeeds)
    (file : Option Text)
    {name : String} {update : CameraOverride} (hu : update.Valid)
    (hname : Storable name) :
    ∃ t, saveOverride ops file name update = .ok (true, some t) ∧
      storedOverride (some t) = (storedOverride file).overlay update := by
  refine ⟨_, saveOverride_eq h file name update, ?_⟩
  rw [storedOverride_some]
  exact CameraOverride.ofText_toText
    ((valid_storedOverride file).overlay hu) hname

/-! ## Saving is a merge

A merge is what a caller of `SaveOverride` expects: fields that were given are
taken over, the others stay, and saving again changes nothing. For names on
one line this holds with the single exception of the section before. -/

namespace CameraOverride

variable (o u u₁ u₂ : CameraOverride)

/-- Two updates after each other are their overlay. -/
theorem overlay_assoc :
    (o.overlay u₁).overlay u₂ = o.overlay (u₁.overlay u₂) := by
  simp only [overlay, Option.or_assoc]

/-- An update made twice is the update made once. -/
theorem overlay_overlay_self : (o.overlay u).overlay u = o.overlay u := by
  simp only [overlay, ← Option.or_assoc, Option.or_self]

end CameraOverride

/-- **Saving under a name is a lawful merge**, over whatever the file held: what
is loaded afterwards is what was loaded before with the fields of the update
replaced, saving again changes nothing, and saving another update is saving the
overlay of the two. -/
def IsMerge (name : String) : Prop :=
  ∀ (ops : FileOps) (file : Option Text) (update : CameraOverride),
    ops.Succeeds → update.Valid →
    ∃ t, saveOverride ops file name update = .ok (true, some t) ∧
      (∀ load : FileOps, load.existsThrows = none → load.readable = true →
        ∃ before, loadOverride load file = .ok before ∧
          loadOverride load (some t)
            = .ok (some ((before.getD {}).overlay update))) ∧
      ∀ again : FileOps, again.Succeeds →
        saveOverride again (some t) name update = .ok (true, some t) ∧
          ∀ update₂, saveOverride again (some t) name update₂
            = saveOverride ops file name (update.overlay update₂)

theorem isMerge_of_storable {name : String} (hname : Storable name) :
    IsMerge name := by
  intro ops file update hops hupdate
  obtain ⟨t, hsave, hstored⟩ :=
    saveOverride_of_succeeds hops file hupdate hname
  have htext : t = ((storedOverride file).overlay update).toText name := by
    rw [saveOverride_eq hops] at hsave
    simpa using hsave.symm
  refine ⟨t, hsave, fun load hthrow hread => ?_,
    fun again hagain => ⟨?_, fun update₂ => ?_⟩⟩
  · refine ⟨_, loadOverride_of_readable hthrow hread file, ?_⟩
    rw [loadOverride_of_readable hthrow hread]
    exact congrArg (fun o => Except.ok (some o)) hstored
  · rw [saveOverride_eq hagain, hstored, CameraOverride.overlay_overlay_self,
      ← htext]
  · rw [saveOverride_eq hagain, saveOverride_eq hops, hstored,
      CameraOverride.overlay_assoc]

/-- **Saving under a name on one line is a lawful merge exactly if the name
does not end the file.** The file is opened in text mode, where a reader takes
the character U+001A for the end of the file. -/
theorem saveOverride_isMerge_iff {name : String} (hname : '\n' ∉ name.toList) :
    IsMerge name ↔ fileMode.endOfFile ∉ name.toList := by
  refine ⟨fun hmerge hmem => ?_, fun h => isMerge_of_storable ⟨hname, h⟩⟩
  have hvalid : CameraOverride.Valid { width := some 640 } :=
    ⟨by simp, by simp [IsInt32], by simp, by simp⟩
  obtain ⟨t, hsave, hload, -⟩ :=
    hmerge {} none { width := some 640 } ⟨rfl, rfl, rfl⟩ hvalid
  obtain ⟨before, hbefore, hafter⟩ := hload {} rfl rfl
  obtain rfl := Except.ok.inj hbefore
  rw [saveOverride_eq ⟨rfl, rfl, rfl⟩] at hsave
  obtain rfl := Option.some.inj (Prod.mk.inj (Except.ok.inj hsave)).2
  rw [loadOverride_of_readable rfl rfl, Option.map_some,
    CameraOverride.ofText_toText_of_mem _ hname hmem] at hafter
  exact absurd (congrArg CameraOverride.width
    (Option.some.inj (Except.ok.inj hafter))) (by decide)

/-- A file with lines that are not understood, and an update of two fields. -/
theorem saveOverride_isMerge_iff_overMalformedLines :
    ∃ t, saveOverride {}
        (some "width= 12px\nnonsense\nfps=thirty\nheight=0480".toList) "Cam 1"
        { mode := some .transcodeRawToH264, fps := some 15 }
          = .ok (true, some t) ∧
      loadOverride {} (some t) = .ok (some ⟨some .transcodeRawToH264, some 12,
        some 480, some 15, none⟩) := by
  have hvalid : CameraOverride.Valid
      { mode := some .transcodeRawToH264, fps := some 15 } :=
    ⟨by decide, by simp, by simp, by simp [IsInt32]⟩
  obtain ⟨t, hsave, hload, -⟩ :=
    (@saveOverride_isMerge_iff "Cam 1" (by decide)).mpr (by decide) {}
      (some "width= 12px\nnonsense\nfps=thirty\nheight=0480".toList) _
      ⟨rfl, rfl, rfl⟩ hvalid
  obtain ⟨before, hbefore, hafter⟩ := hload {} rfl rfl
  refine ⟨t, hsave, hafter.trans ?_⟩
  obtain rfl := Except.ok.inj hbefore
  decide +kernel

/-- A name with a Control-Z: a width that was saved is not loaded again. -/
theorem isMerge_controlZ_false :
    ¬ ∀ name : String, '\n' ∉ name.toList → IsMerge name := by
  intro h
  have hname : '\n' ∉ (String.ofList ['C', Char.ofNat 26]).toList := by decide
  have hvalid : CameraOverride.Valid { width := some 640 } :=
    ⟨by simp, by simp [IsInt32], by simp, by simp⟩
  obtain ⟨t, hsave, hload, -⟩ := h _ hname {} none { width := some 640 }
    ⟨rfl, rfl, rfl⟩ hvalid
  obtain ⟨before, hbefore, hafter⟩ := hload {} rfl rfl
  obtain rfl := Except.ok.inj hbefore
  rw [saveOverride_eq ⟨rfl, rfl, rfl⟩] at hsave
  obtain rfl := Option.some.inj (Prod.mk.inj (Except.ok.inj hsave)).2
  exact absurd (congrArg (fun r => r.toOption.bind
    (fun o => o.bind CameraOverride.width)) hafter) (by decide +kernel)

end WebcamStreamer
