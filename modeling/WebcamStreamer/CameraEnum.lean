import WebcamStreamer.CameraProbe

/-!
# Enumerating the cameras

ffmpeg lists the DirectShow devices on its standard error, one line for a
device and one for its alternative name, and the program reads them with
regular expressions. None of these can match in two ways at one position, so
that a search is a leftmost match and a match is a plain reader.

The listing says how a device is called, not that two devices are called
differently: two cameras of one model have one name. What a name can be is
nevertheless bounded (`Enumerated.name_ne_empty`, `Enumerated.newline_notMem`),
because it stands between quotes on one line.
-/

namespace WebcamStreamer

/-! ## Regular expressions

Each expression is a function from a text to what it matches at its front, if
it does, and the search tries the function at one place after the other. None
of the expressions has to go back on a choice, so that the first way to match
is the only one. -/

/-- `std::regex_search`: the leftmost match. -/
def regexSearch {α : Type} (matchAt : Text → Option α) : Text → Option α
  | [] => matchAt []
  | c :: cs => (matchAt (c :: cs)).or (regexSearch matchAt cs)

/-- A non-empty text up to the next quote, and what follows the quote. -/
def untilQuote (t : Text) : Option (Text × Text) :=
  match t.takeWhile (· != '"'), t.dropWhile (· != '"') with
  | c :: cs, '"' :: rest => some (c :: cs, rest)
  | _, _ => none

/-- The text after a prefix that is spelled exactly so. -/
def afterPrefix (p t : Text) : Option Text :=
  if p.isPrefixOf t then some (t.drop p.length) else none

/-- Where nothing is matched before some point, the search starts there. -/
theorem regexSearch_append {α : Type} {matchAt : Text → Option α} {p s : Text}
    (h : ∀ t, t ≠ [] → t <:+ p → matchAt (t ++ s) = none) :
    regexSearch matchAt (p ++ s) = regexSearch matchAt s := by
  induction p with
  | nil => rfl
  | cons c p ih =>
    have hhere : matchAt (c :: (p ++ s)) = none :=
      h (c :: p) (List.cons_ne_nil c p) List.suffix_rfl
    rw [List.cons_append, regexSearch, hhere, Option.none_or]
    exact ih (fun t ht hsuffix => h t ht (hsuffix.trans (List.suffix_cons c p)))

theorem regexSearch_of_eq_some {α : Type} {matchAt : Text → Option α}
    {t : Text} {a : α}
    (h : matchAt t = some a) : regexSearch matchAt t = some a := by
  cases t with
  | nil => exact h
  | cons c t => rw [regexSearch, h, Option.some_or]

theorem afterPrefix_append (p rest : Text) :
    afterPrefix p (p ++ rest) = some rest := by
  unfold afterPrefix
  rw [if_pos (List.isPrefixOf_iff_prefix.mpr (List.prefix_append p rest)),
    List.drop_left]

theorem afterPrefix_some {p t rest : Text} (h : afterPrefix p t = some rest) :
    t = p ++ rest := by
  unfold afterPrefix at h
  obtain ⟨hstart, hrest⟩ := Option.ite_none_right_eq_some.mp h
  obtain ⟨rest', rfl⟩ := List.isPrefixOf_iff_prefix.mp hstart
  rw [List.drop_left] at hrest
  rw [Option.some.inj hrest]

/-- A prefix of two texts is one of the first, or goes on into the second. -/
theorem afterPrefix_append_of_not {p t s : Text}
    (h : ∀ b, b ≠ [] → p = t ++ b → ¬ b <+: s) :
    afterPrefix p (t ++ s) = (afterPrefix p t).map (· ++ s) := by
  unfold afterPrefix
  by_cases hp : p <+: t
  · obtain ⟨r, rfl⟩ := hp
    rw [if_pos (List.isPrefixOf_iff_prefix.mpr
      (List.append_assoc p r s ▸ List.prefix_append _ _)),
      if_pos (List.isPrefixOf_iff_prefix.mpr (List.prefix_append p r)),
      List.append_assoc,
      List.drop_left, List.drop_left]
    rfl
  · have hno : ¬ p <+: t ++ s := by
      rintro ⟨r, hr⟩
      rcases List.append_eq_append_iff.mp hr with ⟨a, rfl, -⟩ | ⟨b, rfl, rfl⟩
      · exact hp (List.prefix_append p a)
      · exact h b (fun hnil => hp (by simp [hnil])) rfl (List.prefix_append b r)
    rw [if_neg (mt List.isPrefixOf_iff_prefix.mp hno),
      if_neg (mt List.isPrefixOf_iff_prefix.mp hp)]
    rfl

/-- What the listing says a device is. -/
inductive DeviceKind where
  | video
  | audio
  | none
  deriving DecidableEq

/-- `\((video|audio|none)\)` -/
def deviceKind (t : Text) : Option DeviceKind :=
  if "(video)".toList.isPrefixOf t then some .video
  else if "(audio)".toList.isPrefixOf t then some .audio
  else if "(none)".toList.isPrefixOf t then some .none
  else Option.none

/-- `devAnyRe`: a quoted name followed by its kind. -/
def devAnyRe (t : Text) : Option (Text × DeviceKind) := do
  let opened ← afterPrefix ['"'] t
  let (name, rest) ← untilQuote opened
  let kind ← deviceKind (rest.dropWhile isSpace)
  return (name, kind)

/-- `altRe`: the words, at least one space and a quoted name. -/
def altRe (t : Text) : Option Text := do
  let spaces ← afterPrefix "Alternative name".toList t
  if spaces.takeWhile isSpace = [] then Option.none
  else
    let opened ← afterPrefix ['"'] (spaces.dropWhile isSpace)
    let (name, _) ← untilQuote opened
    return name

/-! ## The listing

The loop over the lines carries one flag, whether the line before belonged to
a camera that still waits for its alternative name. What it collects is
filtered by the blacklist, and the identifiers of vendor and product are cut
out of the alternative names. -/

/-- One line of the listing. `found` are the devices so far, the last one
first; `lastWasVideo` says that the line before an alternative name belongs to
it. -/
def readDeviceLine (found : List CameraDevice × Bool) (line : Text) :
    List CameraDevice × Bool :=
  match regexSearch devAnyRe line with
  | some (name, .video) =>
    ({ friendlyName := String.ofList name } :: found.1, true)
  | some _ => (found.1, false)
  | none =>
    match found, regexSearch altRe line with
    | (d :: ds, true), some alt =>
      ({ d with altName := String.ofList alt } :: ds, false)
    | _, _ => found

/-- `ParseFfmpegDshowList`. -/
def parseFfmpegDshowList (stderr : Text) : List CameraDevice :=
  ((getlines stderr).foldl readDeviceLine ([], false)).1.reverse

/-- `IsBlacklisted`. -/
def isBlacklisted (name : String) : Bool :=
  (regexSearch (afterPrefix "virtual".toList)
    (name.toList.map Char.toLower)).isSome

/-- Four hexadecimal digits, in lower case, and what follows them. -/
def fourHex (t : Text) : Option (Text × Text) :=
  let digits := (t.take 4).map Char.toLower
  if digits.length = 4 ∧
    digits.all (fun c => c.isDigit || ('a' ≤ c && c ≤ 'f')) then
    some (digits, t.drop 4)
  else none

/-- The text after a prefix, in any case. -/
def afterPrefixNoCase (p t : Text) : Option Text :=
  if p.isPrefixOf (t.map Char.toLower) then some (t.drop p.length) else none

/-- The expression of `ExtractVidPid`. -/
def vidPidRe (t : Text) : Option Text := do
  let vid ← afterPrefixNoCase "vid_".toList t
  let (vendor, rest) ← fourHex vid
  let rest ← afterPrefix ['&'] rest
  let pid ← afterPrefixNoCase "pid_".toList rest
  let (product, _) ← fourHex pid
  return vendor ++ ':' :: product

/-- `ExtractVidPid`. -/
def extractVidPid (altName : String) : String :=
  String.ofList ((regexSearch vidPidRe altName.toList).getD [])

/-- `EnumerateCameras` on what ffmpeg wrote. -/
def enumerateCameras (stderr : Text) : List CameraDevice :=
  ((parseFfmpegDshowList stderr).filter
    (fun d => !isBlacklisted d.friendlyName)).map
    (fun d => { d with vidPid := extractVidPid d.altName })

/-- Two cameras of one model and a microphone. -/
example :
    enumerateCameras
      ("[in] \"Cam\" (video)\n"
      ++ "[in] Alternative name \"usb#vid_046D&pid_085e#1\"\n"
      ++ "[in] \"Mic\" (audio)\n[in] \"Cam\" (video)\n").toList
      = [⟨"Cam", "usb#vid_046D&pid_085e#1", "046d:085e"⟩, ⟨"Cam", "", ""⟩] := by
  decide

/-- The devices are those of some listing. -/
def Enumerated (devices : List CameraDevice) : Prop :=
  ∃ stderr, devices = enumerateCameras stderr

/-- A control character that ffmpeg's log replaces by a question mark: all of
them but those from the backspace to the carriage return. -/
def ReplacedByLog (c : Char) : Prop := c.toNat < 8 ∨ 13 < c.toNat ∧ c.toNat < 32

instance (c : Char) : Decidable (ReplacedByLog c) :=
  inferInstanceAs (Decidable (_ ∨ _))

/-- The devices are those of a listing as ffmpeg logs it. -/
def Logged (devices : List CameraDevice) : Prop :=
  ∃ stderr : Text, (∀ c ∈ stderr, ¬ ReplacedByLog c) ∧
    devices = enumerateCameras stderr

theorem Logged.enumerated {devices : List CameraDevice} (h : Logged devices) :
    Enumerated devices :=
  let ⟨stderr, _, heq⟩ := h
  ⟨stderr, heq⟩

/-! ## What a name can be

Later results need to know what a name that was enumerated can look like: that
it is not empty, that it has no line break and, where ffmpeg printed the
listing itself, none of the characters that its log replaces. All three follow
from one lemma about a property of the names on a line. -/

theorem newline_notMem_getlines {t line : Text} (h : line ∈ getlines t) :
    '\n' ∉ line := by
  induction t using getlines.induct generalizing line with
  | case1 => simp [getlines] at h
  | case2 rest ih =>
    rw [getlines, List.mem_cons] at h
    rcases h with rfl | h
    · exact List.not_mem_nil
    · exact ih h
  | case3 c rest hc hnil ih =>
    rw [getlines, hnil, List.mem_singleton] at h
    · subst h
      simpa using fun heq => hc heq.symm
    · exact hc
  | case4 c rest hc l ls hcons ih =>
    rw [getlines, hcons, List.mem_cons] at h
    · rcases h with rfl | h
      · rw [List.mem_cons, not_or]
        exact ⟨fun heq => hc heq.symm, ih (hcons ▸ List.mem_cons_self)⟩
      · exact ih (hcons ▸ List.mem_cons_of_mem _ h)
    · exact hc

/-- What is found is found in the text. -/
theorem regexSearch_some {α : Type} {matchAt : Text → Option α}
    {t : Text} {a : α}
    (h : regexSearch matchAt t = some a) :
    ∃ t', t' <:+ t ∧ matchAt t' = some a := by
  induction t with
  | nil => exact ⟨[], List.suffix_rfl, h⟩
  | cons c cs ih =>
    rcases Option.or_eq_some_iff.mp h with hhere | ⟨-, hlater⟩
    · exact ⟨_, List.suffix_rfl, hhere⟩
    · obtain ⟨t', hsuffix, hmatch⟩ := ih hlater
      exact ⟨t', hsuffix.trans (List.suffix_cons c cs), hmatch⟩

theorem untilQuote_some {t name rest : Text}
    (h : untilQuote t = some (name, rest)) :
    name ≠ [] ∧ name ⊆ t := by
  unfold untilQuote at h
  split at h
  next c cs rest' hname hrest =>
    obtain ⟨rfl, rfl⟩ := Prod.mk.inj (Option.some.inj h)
    exact ⟨List.cons_ne_nil _ _, hname ▸ (List.takeWhile_sublist _).subset⟩
  next => cases h

/-- A name that was read is not empty, and its characters are in the line. -/
theorem devAnyRe_some {t name : Text} {kind : DeviceKind}
    (h : devAnyRe t = some (name, kind)) :
    name ≠ [] ∧ name ⊆ t := by
  simp only [devAnyRe, Option.bind_eq_bind, Option.bind_eq_some_iff,
    Option.pure_def,
    Option.some.injEq, Prod.mk.injEq] at h
  obtain ⟨opened, hopened, ⟨nm, rest⟩, hquote, kind', hkind, rfl, rfl⟩ := h
  obtain ⟨hne, hsub⟩ := untilQuote_some hquote
  refine ⟨hne, List.Subset.trans hsub ?_⟩
  unfold afterPrefix at hopened
  split at hopened
  next => exact Option.some.inj hopened ▸ (List.drop_sublist _ _).subset
  next => cases hopened

/-- A property that the names on a line have, the devices of a listing have. -/
theorem forall_mem_readDeviceLine {P : String → Prop} {line : Text}
    (hline : ∀ name, name ≠ [] → name ⊆ line → P (String.ofList name))
    {found : List CameraDevice × Bool} (h : ∀ d ∈ found.1, P d.friendlyName) :
    ∀ d ∈ (readDeviceLine found line).1, P d.friendlyName := by
  unfold readDeviceLine
  split
  next name hfound =>
    obtain ⟨t', hsuffix, hmatch⟩ := regexSearch_some hfound
    obtain ⟨hne, hsub⟩ := devAnyRe_some hmatch
    exact List.forall_mem_cons.mpr
      ⟨hline name hne (List.Subset.trans hsub hsuffix.subset), h⟩
  next => exact h
  next =>
    split
    next d ds alt _ =>
      exact List.forall_mem_cons.mpr (List.forall_mem_cons.mp h)
    next => exact h

/-- A line of a text has no other characters than the text. -/
theorem subset_of_mem_getlines {t line : Text} (h : line ∈ getlines t) :
    line ⊆ t := by
  induction t using getlines.induct generalizing line with
  | case1 => cases h
  | case2 rest ih =>
    rcases List.mem_cons.mp h with rfl | h
    · exact List.nil_subset _
    · exact List.subset_cons_of_subset _ (ih h)
  | case3 c rest hc hnil ih =>
    rw [getlines, hnil] at h
    · rw [List.mem_singleton.mp h]
      exact List.cons_subset_cons c (List.nil_subset _)
    · exact hc
  | case4 c rest hc l ls hlines ih =>
    rw [getlines, hlines] at h
    · rw [hlines] at ih
      rcases List.mem_cons.mp h with rfl | h
      · exact List.cons_subset_cons c (ih List.mem_cons_self)
      · exact List.subset_cons_of_subset c (ih (List.mem_cons_of_mem _ h))
    · exact hc

/-- A property that the names on every line have, all enumerated devices
have. -/
theorem forall_mem_enumerateCameras {P : String → Prop} {stderr : Text}
    (hline : ∀ line ∈ getlines stderr, ∀ name : Text, name ≠ [] →
      name ⊆ line → P (String.ofList name)) :
    ∀ d ∈ enumerateCameras stderr, P d.friendlyName := by
  have hfold : ∀ lines : List Text, lines ⊆ getlines stderr →
      ∀ found : List CameraDevice × Bool,
        (∀ d ∈ found.1, P d.friendlyName) →
        ∀ d ∈ (lines.foldl readDeviceLine found).1, P d.friendlyName := by
    intro lines
    induction lines with
    | nil => exact fun _ _ hfound => hfound
    | cons line lines ih =>
      intro hlines found hfound
      obtain ⟨hhead, htail⟩ := List.cons_subset.mp hlines
      exact ih htail _ (forall_mem_readDeviceLine (hline line hhead) hfound)
  intro d hd
  obtain ⟨d', hd', rfl⟩ := List.mem_map.mp hd
  have hmem : d' ∈ parseFfmpegDshowList stderr := (List.mem_filter.mp hd').1
  exact hfold _ (List.Subset.refl _) ([], false) (by simp) d'
    (List.mem_reverse.mp hmem)

/-- An enumerated device has a name. -/
theorem Enumerated.name_ne_empty {devices : List CameraDevice}
    (h : Enumerated devices) : ∀ d ∈ devices, d.friendlyName ≠ "" := by
  obtain ⟨stderr, rfl⟩ := h
  refine @forall_mem_enumerateCameras (fun nm => nm ≠ "") stderr
    (fun _ _ name hne _ hempty => hne ?_)
  simpa using congrArg String.toList hempty

/-- The name of an enumerated device stands on one line. -/
theorem Enumerated.newline_notMem {devices : List CameraDevice}
    (h : Enumerated devices) :
    ∀ d ∈ devices, '\n' ∉ d.friendlyName.toList := by
  obtain ⟨stderr, rfl⟩ := h
  refine @forall_mem_enumerateCameras (fun nm => '\n' ∉ nm.toList) stderr
    (fun line hline name _ hsub hmem => newline_notMem_getlines hline (hsub ?_))
  simpa using hmem

/-- The name of a logged device has no character that the log replaces. -/
theorem Logged.not_replaced {devices : List CameraDevice} (h : Logged devices) :
    ∀ d ∈ devices, ∀ c ∈ d.friendlyName.toList, ¬ ReplacedByLog c := by
  obtain ⟨stderr, hstderr, rfl⟩ := h
  refine @forall_mem_enumerateCameras
    (fun nm => ∀ c ∈ nm.toList, ¬ ReplacedByLog c) stderr
    (fun line hline name _ hsub c hc => hstderr c ?_)
  exact subset_of_mem_getlines hline (hsub (by simpa using hc))

end WebcamStreamer
