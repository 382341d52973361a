import WebcamStreamer.CameraEnum
import WebcamStreamer.Overrides

/-!
# Reading back the printed devices

What ffmpeg prints about the DirectShow devices of a machine: a line with the
quoted name and the kind of each device, some lines with its alternative names,
and log lines anywhere between them. Every line has a prefix of its own.

The machine of `readDeviceLine` has no more memory than whether the device line
before was that of a camera that still has no alternative name. That is enough
to read every listing back: the cameras in their order, each with the first
alternative name that was printed for it and for no other device
(`parseFfmpegDshowList_text`).
-/

namespace WebcamStreamer

/-! ## What is printed

A listing is described by its parts: for each device its line and the lines
behind it, with what surrounds the quoted names left open as far as the
expressions allow. The fields with proofs say what may not stand there, and an
instance at the end of the module is made of lines as ffmpeg prints them. -/

/-- How a kind is printed. -/
def DeviceKind.text : DeviceKind → Text
  | .video => "(video)".toList
  | .audio => "(audio)".toList
  | .none => "(none)".toList

/-- The line of a device: a prefix, the quoted name, and the kind. -/
structure DeviceLine where
  pre : Text
  name : Text
  gap : Text
  kind : DeviceKind
  post : Text
  quote_notMem_pre : '"' ∉ pre
  name_ne_nil : name ≠ []
  quote_notMem_name : '"' ∉ name
  isSpace_gap : ∀ c ∈ gap, isSpace c = true
  newline_notMem : '\n' ∉ pre ++ name ++ gap ++ post

/-- The line of an alternative name: a prefix, the words, and the quoted value.
What follows the value is no kind. -/
structure AlternativeLine where
  pre : Text
  gap : Text
  value : Text
  post : Text
  quote_notMem_pre : '"' ∉ pre
  gap_ne_nil : gap ≠ []
  isSpace_gap : ∀ c ∈ gap, isSpace c = true
  value_ne_nil : value ≠ []
  quote_notMem_value : '"' ∉ value
  quote_notMem_post : '"' ∉ post
  deviceKind_post : deviceKind (post.dropWhile isSpace) = none
  newline_notMem : '\n' ∉ pre ++ gap ++ value ++ post

/-- A line that is neither. -/
structure LogLine where
  text : Text
  devAnyRe_eq_none : regexSearch devAnyRe text = none
  altRe_eq_none : regexSearch altRe text = none
  newline_notMem : '\n' ∉ text

def DeviceLine.text (l : DeviceLine) : Text :=
  l.pre ++ '"' :: (l.name ++ '"' :: (l.gap ++ (l.kind.text ++ l.post)))

def AlternativeLine.text (l : AlternativeLine) : Text :=
  l.pre ++ ("Alternative name".toList
    ++ (l.gap ++ '"' :: (l.value ++ '"' :: l.post)))

/-- A line that follows the line of a device. -/
inductive FollowingLine where
  | alternative (line : AlternativeLine)
  | log (line : LogLine)

def FollowingLine.text : FollowingLine → Text
  | .alternative l => l.text
  | .log l => l.text

/-- A device with what follows it up to the next one. -/
structure PrintedDevice where
  line : DeviceLine
  following : List FollowingLine

/-- What ffmpeg prints. -/
structure Listing where
  header : List LogLine
  devices : List PrintedDevice

def PrintedDevice.lines (d : PrintedDevice) : List Text :=
  d.line.text :: d.following.map FollowingLine.text

def Listing.lines (l : Listing) : List Text :=
  l.header.map LogLine.text ++ l.devices.flatMap PrintedDevice.lines

/-- The listing, each line with its newline. -/
def Listing.text (l : Listing) : Text := l.lines.flatMap (· ++ ['\n'])

/-- The first alternative name that is printed, and none if there is none. -/
def firstAlternative : List FollowingLine → Text
  | [] => []
  | .alternative l :: _ => l.value
  | .log _ :: rest => firstAlternative rest

/-- The camera that a printed device is, if it is one. -/
def PrintedDevice.camera? (d : PrintedDevice) : Option CameraDevice :=
  if d.line.kind = .video then
    some { friendlyName := String.ofList d.line.name,
           altName := String.ofList (firstAlternative d.following) }
  else none

/-- The cameras of a listing, in their order. -/
def Listing.cameras (l : Listing) : List CameraDevice :=
  l.devices.filterMap PrintedDevice.camera?

/-! ## One match

An expression matches at a place or not, and where it does the groups are what
was printed. The quote is what keeps the parts apart: it is not in a name, and
nothing is matched across it. -/

theorem afterPrefix_quote (rest : Text) :
    afterPrefix ['"'] ('"' :: rest) = some rest :=
  afterPrefix_append ['"'] rest

/-- Spaces up to something that is none. -/
theorem dropWhile_isSpace_append {gap rest : Text}
    (hgap : ∀ c ∈ gap, isSpace c = true)
    (hrest : ∀ c ∈ rest.head?, isSpace c = false) :
    (gap ++ rest).dropWhile isSpace = rest ∧
      (gap ++ rest).takeWhile isSpace = gap := by
  rw [List.dropWhile_append_of_pos hgap, List.takeWhile_append_of_pos hgap]
  cases rest with
  | nil => exact ⟨rfl, List.append_nil gap⟩
  | cons c rest =>
    have hc : ¬ isSpace c = true := by rw [hrest c rfl]; decide
    rw [List.dropWhile_cons_of_neg hc, List.takeWhile_cons_of_neg hc,
      List.append_nil]
    exact ⟨rfl, rfl⟩

/-- What stands before a quote, and the quote with what follows it. -/
theorem takeWhile_quote {t : Text} (h : '"' ∉ t) (rest : Text) :
    (t ++ '"' :: rest).takeWhile (· != '"') = t
      ∧ (t ++ '"' :: rest).dropWhile (· != '"') = '"' :: rest := by
  have hall : ∀ a ∈ t, (a != '"') = true := fun a ha => by
    simpa using fun heq : a = '"' => h (heq ▸ ha)
  rw [List.takeWhile_append_of_pos hall, List.dropWhile_append_of_pos hall]
  simp

theorem untilQuote_append {name : Text} (rest : Text) (hne : name ≠ [])
    (h : '"' ∉ name) :
    untilQuote (name ++ '"' :: rest) = some (name, rest) := by
  obtain ⟨c, cs, rfl⟩ := List.exists_cons_of_ne_nil hne
  unfold untilQuote
  rw [(takeWhile_quote h rest).1, (takeWhile_quote h rest).2]
  rfl

/-- Without a quote nothing is quoted. -/
theorem untilQuote_eq_none {t : Text} (h : '"' ∉ t) : untilQuote t = none := by
  have hall : ∀ a ∈ t, (a != '"') = true := fun a ha => by
    simpa using fun heq : a = '"' => h (heq ▸ ha)
  unfold untilQuote
  rw [List.dropWhile_eq_nil_iff.mpr hall]
  split
  next heq => cases heq
  next => rfl

/-- A match of a device begins with a quote. -/
theorem devAnyRe_of_head {t : Text} (h : ∀ t', t ≠ '"' :: t') :
    devAnyRe t = none := by
  unfold devAnyRe afterPrefix
  cases t with
  | nil => rfl
  | cons c t =>
    have hc : c ≠ '"' := fun heq => h t (by rw [heq])
    simp [Ne.symm hc]

theorem deviceKind_text (kind : DeviceKind) (post : Text) :
    deviceKind (kind.text ++ post) = some kind := by
  cases kind <;> rfl

/-! ## One line

A search could match a line further left than where its name was printed, or
match the wrong expression. Neither happens: without a quote nothing is
matched, and behind the value of an alternative name no kind follows. -/

/-- Before the first quote no device is matched. -/
theorem devAnyRe_append_eq_none {t s : Text} (ht : t ≠ []) (hq : '"' ∉ t) :
    devAnyRe (t ++ s) = none := by
  obtain ⟨c, t, rfl⟩ := List.exists_cons_of_ne_nil ht
  refine devAnyRe_of_head (fun t' heq => hq ?_)
  exact (List.cons.inj heq).1 ▸ List.mem_cons_self

/-- **The line of a device** is matched at its name. The name has no quote in
it, so that the greedy group of the expression ends at the quote behind the
name and not at a later one. -/
theorem DeviceLine.regexSearch_text (l : DeviceLine) :
    regexSearch devAnyRe l.text = some (l.name, l.kind) := by
  have hkind : ∀ c ∈ (l.kind.text ++ l.post).head?, isSpace c = false := by
    intro c hc
    cases hk : l.kind <;> rw [hk] at hc <;> obtain rfl :=
      Option.some.inj hc <;> rfl
  rw [DeviceLine.text,
    regexSearch_append (fun t ht hsuffix => devAnyRe_append_eq_none ht
    (fun hq => l.quote_notMem_pre (hsuffix.subset hq)))]
  refine regexSearch_of_eq_some ?_
  unfold devAnyRe
  rw [afterPrefix_quote]
  simp [untilQuote_append _ l.name_ne_nil l.quote_notMem_name,
    (dropWhile_isSpace_append l.isSpace_gap hkind).1, deviceKind_text]

/-- Before the value of an alternative name there is no quote. -/
theorem AlternativeLine.quote_notMem_words (l : AlternativeLine) :
    '"' ∉ l.pre ++ ("Alternative name".toList ++ l.gap) := by
  have hgap : '"' ∉ l.gap := fun h => absurd (l.isSpace_gap _ h) (by decide)
  have hwords : '"' ∉ "Alternative name".toList := by decide
  simp only [List.mem_append, not_or]
  exact ⟨l.quote_notMem_pre, hwords, hgap⟩

/-- **The line of an alternative name** is not that of a device: behind the
value no kind follows, and no other quote. -/
theorem AlternativeLine.regexSearch_devAnyRe (l : AlternativeLine) :
    regexSearch devAnyRe l.text = none := by
  have htext : l.text = (l.pre ++ ("Alternative name".toList ++ l.gap))
      ++ '"' :: (l.value ++ '"' :: l.post) := by
    simp [AlternativeLine.text]
  have hopen : devAnyRe ('"' :: (l.value ++ '"' :: l.post)) = none := by
    unfold devAnyRe
    rw [afterPrefix_quote]
    simp [untilQuote_append _ l.value_ne_nil l.quote_notMem_value,
      l.deviceKind_post]
  have hclose : devAnyRe ('"' :: l.post) = none := by
    unfold devAnyRe
    rw [afterPrefix_quote]
    simp [untilQuote_eq_none l.quote_notMem_post]
  have hpost : regexSearch devAnyRe l.post = none := by
    rw [← List.append_nil l.post, regexSearch_append (fun t ht hsuffix =>
      devAnyRe_append_eq_none ht
        (fun hq => l.quote_notMem_post (hsuffix.subset hq)))]
    rfl
  rw [htext, regexSearch_append (fun t ht hsuffix => devAnyRe_append_eq_none ht
      (fun hq => l.quote_notMem_words (hsuffix.subset hq))),
    regexSearch, hopen, Option.none_or,
    regexSearch_append (fun t ht hsuffix => devAnyRe_append_eq_none ht
      (fun hq => l.quote_notMem_value (hsuffix.subset hq))),
    regexSearch, hclose, Option.none_or, hpost]

/-- What is matched as an alternative name has the words, and spaces up to a
quote. -/
theorem altRe_some {t value : Text} (h : altRe t = some value) :
    ∃ gap rest, (∀ c ∈ gap, isSpace c = true) ∧
      t = ("Alternative name".toList ++ gap) ++ '"' :: rest := by
  unfold altRe at h
  obtain ⟨spaces, hwords, h⟩ := Option.bind_eq_some_iff.mp h
  obtain ⟨-, h⟩ := Option.ite_none_left_eq_some.mp h
  obtain ⟨opened, hopened, -⟩ := Option.bind_eq_some_iff.mp h
  refine ⟨spaces.takeWhile isSpace, opened,
    fun c hc => List.mem_takeWhile_imp hc, ?_⟩
  rw [afterPrefix_some hwords, List.append_assoc]
  refine congrArg ("Alternative name".toList ++ ·) ?_
  conv_lhs =>
    rw [← List.takeWhile_append_dropWhile (p := isSpace) (l := spaces)]
  rw [afterPrefix_some hopened]
  rfl

/-- **The line of an alternative name** is matched at its words: no other
words end at the quote. The search goes from the left, and the words would
have to stand somewhere in front for it to stop earlier. -/
theorem AlternativeLine.regexSearch_altRe (l : AlternativeLine) :
    regexSearch altRe l.text = some l.value := by
  have hgapA : l.gap.count 'A' = 0 := List.count_eq_zero.mpr
    (fun h => absurd (l.isSpace_gap _ h) (by decide))
  have hbefore : ∀ t, t ≠ [] → t <:+ l.pre →
      altRe (t ++ ("Alternative name".toList
      ++ (l.gap ++ '"' :: (l.value ++ '"' :: l.post)))) = none := by
    intro t ht hsuffix
    refine Option.eq_none_iff_forall_ne_some.mpr (fun value hvalue => ?_)
    obtain ⟨gap, rest, hgap, heq⟩ := altRe_some hvalue
    have hq : '"' ∉ t ++ ("Alternative name".toList ++ l.gap) := fun hmem =>
      l.quote_notMem_words (by
        rcases List.mem_append.mp hmem with h | h
        · exact List.mem_append_left _ (hsuffix.subset h)
        · exact List.mem_append_right _ h)
    have hq' : '"' ∉ "Alternative name".toList ++ gap := fun hmem => by
      rcases List.mem_append.mp hmem with h | h
      · exact absurd h (by decide)
      · exact absurd (hgap _ h) (by decide)
    replace heq : (t ++ ("Alternative name".toList ++ l.gap))
        ++ '"' :: (l.value ++ '"' :: l.post)
        = ("Alternative name".toList ++ gap) ++ '"' :: rest := by
      rw [← heq, List.append_assoc, List.append_assoc]
    have hwords : t ++ ("Alternative name".toList ++ l.gap)
        = "Alternative name".toList ++ gap := by
      rw [← (takeWhile_quote hq _).1, heq, (takeWhile_quote hq' rest).1]
    -- the words have one capital letter, and begin with it
    have hgapA' : gap.count 'A' = 0 := List.count_eq_zero.mpr
      (fun h => absurd (hgap _ h) (by decide))
    have hcount := congrArg (List.count 'A') hwords
    rw [List.count_append, List.count_append, List.count_append, hgapA,
      hgapA'] at hcount
    obtain ⟨c, t, rfl⟩ := List.exists_cons_of_ne_nil ht
    have hc : c = 'A' := (List.cons.inj hwords).1
    rw [hc, List.count_cons_self] at hcount
    omega
  rw [AlternativeLine.text, regexSearch_append hbefore]
  refine regexSearch_of_eq_some ?_
  have hquote : ∀ c ∈ ('"' :: (l.value ++ '"' :: l.post)).head?,
      isSpace c = false := by
    intro c hc
    obtain rfl := Option.some.inj hc
    rfl
  obtain ⟨hdrop, htake⟩ := dropWhile_isSpace_append l.isSpace_gap hquote
  unfold altRe
  rw [afterPrefix_append, Option.bind_eq_bind, Option.bind_some, htake,
    if_neg l.gap_ne_nil, hdrop,
    afterPrefix_quote]
  simp [untilQuote_append _ l.value_ne_nil l.quote_notMem_value]

/-! ## The machine

The loop is a machine with one flag, which is up when a camera has no
alternative name yet. The lemmas say what each kind of line does in each of
the two states, and a whole device is folded in one of two ways. -/

/-- A log line changes nothing. -/
theorem readDeviceLine_log (found : List CameraDevice × Bool) (l : LogLine) :
    readDeviceLine found l.text = found := by
  unfold readDeviceLine
  rw [l.devAnyRe_eq_none, l.altRe_eq_none]
  obtain ⟨devices, waiting⟩ := found
  cases devices <;> cases waiting <;> rfl

theorem readDeviceLine_device (found : List CameraDevice × Bool)
    (l : DeviceLine) :
    readDeviceLine found l.text
      = if l.kind = .video then
        ({ friendlyName := String.ofList l.name } :: found.1, true)
        else (found.1, false) := by
  unfold readDeviceLine
  rw [l.regexSearch_text]
  cases l.kind <;> rfl

/-- An alternative name is that of the camera on the line before, if one waits
for it. -/
theorem readDeviceLine_alternative_waiting (d : CameraDevice)
    (ds : List CameraDevice)
    (l : AlternativeLine) :
    readDeviceLine (d :: ds, true) l.text
      = ({ d with altName := String.ofList l.value } :: ds, false) := by
  unfold readDeviceLine
  rw [l.regexSearch_devAnyRe, l.regexSearch_altRe]

theorem readDeviceLine_alternative_settled (ds : List CameraDevice)
    (l : AlternativeLine) :
    readDeviceLine (ds, false) l.text = (ds, false) := by
  unfold readDeviceLine
  rw [l.regexSearch_devAnyRe]
  cases ds <;> rfl

/-- While no camera waits for a name, nothing that follows changes what was
found. -/
theorem foldl_following_settled (ds : List CameraDevice)
    (following : List FollowingLine) :
    (following.map FollowingLine.text).foldl readDeviceLine (ds, false) = (ds,
      false) := by
  induction following with
  | nil => rfl
  | cons l following ih =>
    rw [List.map_cons, List.foldl_cons]
    cases l with
    | alternative l =>
      rwa [FollowingLine.text, readDeviceLine_alternative_settled]
    | log l => rwa [FollowingLine.text, readDeviceLine_log]

/-- **A camera that waits for a name** gets the first that follows. Lines that
are neither of a device nor of an alternative name are passed over, and after
the first alternative name none is taken any more. -/
theorem foldl_following_waiting (name : String) (ds : List CameraDevice)
    (following : List FollowingLine) :
    ((following.map FollowingLine.text).foldl readDeviceLine
        ({ friendlyName := name } :: ds, true)).1
      = { friendlyName := name
          altName := String.ofList (firstAlternative following) } :: ds := by
  induction following with
  | nil => rfl
  | cons l following ih =>
    rw [List.map_cons, List.foldl_cons]
    cases l with
    | alternative l =>
      rw [FollowingLine.text, readDeviceLine_alternative_waiting,
        foldl_following_settled]
      rfl
    | log l =>
      rw [FollowingLine.text, readDeviceLine_log, ih]
      rfl

/-- A printed device is read as its camera, whoever waited for a name before. -/
theorem foldl_printedDevice (found : List CameraDevice × Bool)
    (d : PrintedDevice) :
    (d.lines.foldl readDeviceLine found).1 = d.camera?.toList ++ found.1 := by
  rw [PrintedDevice.lines, List.foldl_cons, readDeviceLine_device,
    PrintedDevice.camera?]
  by_cases hvideo : d.line.kind = .video
  · rw [if_pos hvideo, if_pos hvideo, foldl_following_waiting]
    rfl
  · rw [if_neg hvideo, if_neg hvideo, foldl_following_settled]
    rfl

theorem foldl_devices (found : List CameraDevice × Bool)
    (devices : List PrintedDevice) :
    ((devices.flatMap PrintedDevice.lines).foldl readDeviceLine found).1
      = (devices.filterMap PrintedDevice.camera?).reverse ++ found.1 := by
  induction devices generalizing found with
  | nil => rfl
  | cons d devices ih =>
    rw [List.flatMap_cons, List.foldl_append, ih, foldl_printedDevice]
    cases h : d.camera? with
    | none => rw [List.filterMap_cons_none h]; rfl
    | some cam => rw [List.filterMap_cons_some h]; simp

theorem foldl_header (found : List CameraDevice × Bool)
    (header : List LogLine) :
    (header.map LogLine.text).foldl readDeviceLine found = found := by
  induction header with
  | nil => rfl
  | cons l header ih =>
    rw [List.map_cons, List.foldl_cons, readDeviceLine_log, ih]

/-! ## The listing

Put together over all devices the machine finds the cameras in their order,
and each has the first alternative name that stands between its line and the
next device. What follows a microphone never reaches the camera before it. -/

theorem FollowingLine.newline_notMem : ∀ l : FollowingLine, '\n' ∉ l.text
  | .alternative l => by
    have hwords : '\n' ∉ "Alternative name".toList := by decide
    have h := l.newline_notMem
    simp only [FollowingLine.text, AlternativeLine.text, List.mem_append,
      List.mem_cons, not_or]
      at h ⊢
    exact ⟨h.1.1.1, hwords, h.1.1.2, by decide, h.1.2, by decide, h.2⟩
  | .log l => l.newline_notMem

theorem DeviceLine.newline_notMem_text (l : DeviceLine) : '\n' ∉ l.text := by
  have hkind : '\n' ∉ l.kind.text := by cases l.kind <;> decide
  have h := l.newline_notMem
  simp only [DeviceLine.text, List.mem_append, List.mem_cons, not_or] at h ⊢
  exact ⟨h.1.1.1, by decide, h.1.1.2, by decide, h.1.2, hkind, h.2⟩

theorem Listing.newline_notMem (l : Listing) :
    ∀ line ∈ l.lines, '\n' ∉ line := by
  intro line hline
  rcases List.mem_append.mp hline with h | h
  · obtain ⟨log, -, rfl⟩ := List.mem_map.mp h
    exact log.newline_notMem
  · obtain ⟨d, -, hd⟩ := List.mem_flatMap.mp h
    rcases List.mem_cons.mp hd with rfl | hd
    · exact d.line.newline_notMem_text
    · obtain ⟨following, -, rfl⟩ := List.mem_map.mp hd
      exact following.newline_notMem

/-- **Every listing is read back**: the cameras in their order, each with the
first alternative name between its own line and that of the next device. The
listing may have any other lines in it, as long as they are not taken for one
of these, and devices of other kinds, whose alternative names go to no
camera. -/
theorem parseFfmpegDshowList_text (l : Listing) :
    parseFfmpegDshowList l.text = l.cameras := by
  rw [parseFfmpegDshowList, Listing.text, getlines_flatMap l.newline_notMem,
    Listing.lines,
    List.foldl_append, foldl_header, foldl_devices, List.append_nil,
    List.reverse_reverse]
  rfl

/-- The line of a device as ffmpeg prints it. -/
def ffmpegDeviceLine (name : Text) (kind : DeviceKind) (hne : name ≠ [])
    (hquote : '"' ∉ name) (hnewline : '\n' ∉ name) : DeviceLine where
  pre := "[dshow @ 0000021c] ".toList
  name := name
  gap := [' ']
  kind := kind
  post := []
  quote_notMem_pre := by decide
  name_ne_nil := hne
  quote_notMem_name := hquote
  isSpace_gap := List.all_eq_true.mp (by decide)
  newline_notMem := by
    simp only [List.mem_append, not_or]
    exact ⟨⟨⟨by decide, hnewline⟩, by decide⟩, by decide⟩

/-- The line of an alternative name, which ffmpeg indents. -/
def microphoneName : AlternativeLine where
  pre := "[dshow @ 0000021c]   ".toList
  gap := [' ']
  value := "@device_cm_33d9".toList
  post := []
  quote_notMem_pre := by decide
  gap_ne_nil := by decide
  isSpace_gap := List.all_eq_true.mp (by decide)
  value_ne_nil := by decide
  quote_notMem_value := by decide
  quote_notMem_post := by decide
  deviceKind_post := rfl
  newline_notMem := by decide

/-- A camera without an alternative name, with a log line behind it, and a
microphone that has one. -/
def bareCamera : Listing where
  header := []
  devices := [
    { line := ffmpegDeviceLine "Cam".toList .video
        (by decide) (by decide) (by decide)
      following := [.log
        { text := "[dshow @ 0000021c] Could not enumerate".toList
          devAnyRe_eq_none := by decide
          altRe_eq_none := by decide
          newline_notMem := by decide }] },
    { line := ffmpegDeviceLine "Mic".toList .audio
        (by decide) (by decide) (by decide)
      following := [.alternative microphoneName] }]

/-- What was printed for the microphone does not end up on the camera. -/
theorem parseFfmpegDshowList_text_bareCamera :
    parseFfmpegDshowList bareCamera.text
      = [{ friendlyName := "Cam", altName := "" }] :=
  parseFfmpegDshowList_text bareCamera

end WebcamStreamer
