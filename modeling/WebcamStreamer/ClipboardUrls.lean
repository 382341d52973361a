import WebcamStreamer.CameraTable
import WebcamStreamer.PercentEncoding
import WebcamStreamer.SlotPaths

/-!
# The URL that is copied

A row of the camera table has a URL to paste into a player. It carries the
credentials that viewers need, which may be any text: they are percent-encoded,
so that none of their characters is taken for a part of the URL. A player cuts
the URL into its parts again and decodes the credentials, and so logs in with
the credentials the supervisor has reported. Where one of these is empty, the
URL has the text `viewer` in its place.
-/

namespace WebcamStreamer

/-! ## Writing a URL

There are two URLs for a row. The one for the eye has words in place of the
credentials, and the one for the clipboard carries both of them, each with
everything escaped that is not unreserved. Where a credential is empty the
word `viewer` stands in its place. -/

/-- Letters, digits and `-_.~`, which `Uri.EscapeDataString` leaves alone. -/
def unreserved : PercentSet where
  keep b :=
    b.toNat < 128 &&
      ((Char.ofNat b.toNat).isAlphanum || ['-', '_', '.',
        '~'].contains (Char.ofNat b.toNat))
  ascii b h := by simpa using (Bool.and_eq_true_iff.mp h).1
  percent := by decide

/-- The bytes of a text. -/
def utf8Bytes (s : String) : List UInt8 := s.toUTF8.data.toList

/-- `Uri.EscapeDataString`. -/
def escapeDataString (s : String) : String :=
  String.ofList (PercentEncoding.escape unreserved (utf8Bytes s))

namespace CameraInfo

/-- `DisplayUrl`, for the eye. -/
def displayUrl (row : CameraInfo) : String :=
  "rtsp://<username>:<password>@127.0.0.1:8554" ++ row.path

/-- `ClipboardUrl`. -/
def clipboardUrl (row : CameraInfo) : String :=
  let u :=
    if row.viewerUser = "" then "viewer" else escapeDataString row.viewerUser
  let p := if row.viewerPassword = "" then
    "viewer" else escapeDataString row.viewerPassword
  "rtsp://" ++ u ++ ":" ++ p ++ "@127.0.0.1:8554" ++ row.path

end CameraInfo

/-! ## Reading a URL

A player takes the authority up to the first character that ends one, cuts it
at the first `@`, cuts both parts at their first colon, and decodes the
credentials. The reader is written from the syntax of such URLs and does not
look at how the row wrote its own. -/

/-- A text cut at the first place where a character stands. -/
def cutAt (c : Char) : List Char → Option (List Char × List Char)
  | [] => none
  | d :: rest =>
    if d = c then
      some ([], rest)
    else (cutAt c rest).map (fun r => (d :: r.1, r.2))

/-- A percent-encoded text. -/
def decodeText (cs : List Char) : Option String :=
  (PercentEncoding.unescape cs).bind (fun bs => String.fromUTF8? ⟨bs.toArray⟩)

/-- The parts of a URL with credentials. -/
structure RtspUrl where
  user : String
  password : String
  host : String
  port : String
  path : String
  deriving DecidableEq

/-- The parts of the authority: the credentials up to the `@`, the host up to
the colon. -/
def readAuthority (authority path : List Char) : Option RtspUrl :=
  match cutAt '@' authority with
  | none => none
  | some (credentials, address) =>
    match cutAt ':' credentials, cutAt ':' address with
    | some (user, password), some (host, port) =>
      match decodeText user, decodeText password with
      | some user, some password =>
        some { user, password, host := String.ofList host
               port := String.ofList port, path := String.ofList path }
      | _, _ => none
    | _, _ => none

/-- A character that does not end the authority. -/
def inAuthority (c : Char) : Bool := !(['/', '?', '#'].contains c)

/-- What a player makes of a URL. -/
def readRtspUrl (url : String) : Option RtspUrl :=
  let rest := url.toList.drop 7
  if url.toList.take 7 = "rtsp://".toList then
    readAuthority (rest.takeWhile inAuthority) (rest.dropWhile inAuthority)
  else none

/-! ## Back and forth

None of the characters that separate the parts of a URL is unreserved, so that
none of them is left in an escaped credential, and every cut of the reader
falls where the writer has put the sign. The rest is that percent encoding is
read back. -/

theorem cutAt_append {c : Char} {a : List Char} (h : c ∉ a) (b : List Char) :
    cutAt c (a ++ c :: b) = some (a, b) := by
  induction a with
  | nil => exact if_pos rfl
  | cons d a ih =>
    rw [List.mem_cons, not_or] at h
    rw [List.cons_append, cutAt, if_neg (Ne.symm h.1), ih h.2]
    rfl

theorem decodeText_escapeDataString (s : String) :
    decodeText (escapeDataString s).toList = some s := by
  rw [escapeDataString, String.toList_ofList, decodeText,
    PercentEncoding.unescape_escape]
  show String.fromUTF8? s.toUTF8 = some s
  rw [String.fromUTF8?, dif_pos (show s.toUTF8.IsValidUTF8 from s.isValidUTF8)]
  rfl

/-- What separates the parts of a URL. -/
def urlSeparators : List Char := [':', '@', '/', '?', '#']

theorem notMem_escapeDataString (s : String) :
    ∀ c ∈ urlSeparators, c ∉ (escapeDataString s).toList := by
  intro c hc
  have hnot : ∀ c ∈ urlSeparators,
      (c.isAlphanum || ['-', '_', '.', '~'].contains c) = false ∧
      PercentEncoding.hexValue c = none ∧ c ≠ '%' := by
    intro c hc
    simp only [urlSeparators, List.mem_cons, List.not_mem_nil, or_false] at hc
    rcases hc with rfl | rfl | rfl | rfl | rfl <;> decide
  obtain ⟨hkept, hdigit, hpercent⟩ := hnot c hc
  rw [escapeDataString, String.toList_ofList]
  refine PercentEncoding.notMem_escape (fun b hb heq => ?_) hdigit hpercent _
  have hkeep := (Bool.and_eq_true_iff.mp hb).2
  rw [heq, hkept] at hkeep
  exact Bool.false_ne_true hkeep

/-- The credential that stands in the URL: for an empty one it is `viewer`. -/
def urlCredential (s : String) : String := if s = "" then "viewer" else s

theorem urlCredential_eq_self {s : String} : urlCredential s = s ↔ s ≠ "" := by
  rw [urlCredential]
  split
  next hempty => simp [hempty]
  next hne => exact ⟨fun _ => hne, fun _ => rfl⟩

/-- A part of the URL is decoded to the credential it stands for, and has no
separator. -/
theorem urlPart_spec (s : String) :
    decodeText (if s = "" then "viewer" else escapeDataString s).toList
        = some (urlCredential s) ∧
      ∀ c ∈ urlSeparators,
        c ∉ (if s = "" then "viewer" else escapeDataString s).toList := by
  have hviewer : escapeDataString "viewer" = "viewer" := by decide
  rw [urlCredential]
  split
  next =>
    rw [← hviewer]
    exact ⟨decodeText_escapeDataString _, notMem_escapeDataString _⟩
  next => exact ⟨decodeText_escapeDataString s, notMem_escapeDataString s⟩

/-- The authority is read back from parts without a separator. -/
theorem readAuthority_append {u p host : List Char} {user password : String}
    (hu : ∀ c ∈ urlSeparators, c ∉ u) (hp : ∀ c ∈ urlSeparators, c ∉ p)
    (hhost : ':' ∉ host)
    (huser : decodeText u = some user) (hpass : decodeText p = some password)
    (port path : List Char) :
    readAuthority (u ++ ':' :: p ++ '@' :: (host ++ ':' :: port)) path = some
      { user, password, host := String.ofList host, port := String.ofList port
        path := String.ofList path } := by
  have hat : '@' ∉ u ++ ':' :: p := by
    rw [List.mem_append, List.mem_cons, not_or, not_or]
    exact ⟨hu _ (by decide), by decide, hp _ (by decide)⟩
  simp only [readAuthority, cutAt_append hat, cutAt_append (hu ':' (by decide)),
    cutAt_append hhost, huser, hpass]

/-- The authority ends where the path begins. -/
theorem inAuthority_of_notMem {cs : List Char}
    (h : ∀ c ∈ urlSeparators, c ∉ cs) :
    ∀ c ∈ cs, inAuthority c = true := by
  intro c hc
  have hne : c ∉ ['/', '?', '#'] := by
    intro hmem
    refine h c ?_ hc
    simp only [List.mem_cons, List.not_mem_nil, or_false] at hmem
    rcases hmem with rfl | rfl | rfl <;> decide
  rw [inAuthority, Bool.not_eq_true', Bool.eq_false_iff, ne_eq,
    List.contains_iff_mem]
  exact hne

theorem readRtspUrl_of_toList {url : String} {rest : List Char}
    (h : url.toList = "rtsp://".toList ++ rest) : readRtspUrl url
      = readAuthority (rest.takeWhile inAuthority)
        (rest.dropWhile inAuthority) := by
  rw [readRtspUrl, h]
  exact if_pos rfl

/-- **A player reads what was meant**: the credentials, the address and the
path. What is between the signs at which a player cuts was escaped, and is
unescaped behind the cut. -/
theorem readRtspUrl_clipboardUrl {row : CameraInfo} {rest : List Char}
    (hpath : row.path.toList = '/' :: rest) :
    readRtspUrl row.clipboardUrl = some
      { user := urlCredential row.viewerUser
        password := urlCredential row.viewerPassword
        host := "127.0.0.1", port := "8554", path := row.path } := by
  obtain ⟨huser, hu⟩ := urlPart_spec row.viewerUser
  obtain ⟨hpass, hp⟩ := urlPart_spec row.viewerPassword
  have hurl : row.clipboardUrl.toList = "rtsp://".toList ++
      ((if row.viewerUser
        = "" then "viewer" else escapeDataString row.viewerUser).toList
        ++ ':' :: (if row.viewerPassword = "" then "viewer"
          else escapeDataString row.viewerPassword).toList
        ++ '@' :: ("127.0.0.1".toList ++ ':' :: "8554".toList) ++ '/'
          :: rest) := by
    simp [CameraInfo.clipboardUrl, hpath]
  generalize (if row.viewerUser
    = "" then "viewer" else escapeDataString row.viewerUser).toList = u
    at huser hu hurl
  generalize (if row.viewerPassword = "" then "viewer"
    else escapeDataString row.viewerPassword).toList = p at hpass hp hurl
  -- nothing in front of the path ends the authority, neither what was escaped
  -- nor the fixed parts
  have hall : ∀ c ∈ u ++ ':' :: p ++ '@'
      :: ("127.0.0.1".toList ++ ':' :: "8554".toList),
      inAuthority c = true := by
    intro c hc
    have haddress :
        ∀ c ∈ ':' :: '@' :: ("127.0.0.1".toList ++ ':' :: "8554".toList),
        inAuthority c = true := List.all_eq_true.mp rfl
    simp only [List.mem_append, List.mem_cons] at hc haddress
    rcases hc with (hc | hc | hc) | hc
    · exact inAuthority_of_notMem hu c hc
    · exact haddress c (.inl hc)
    · exact inAuthority_of_notMem hp c hc
    · exact haddress c (.inr hc)
  have hslash : ('/' :: rest).takeWhile inAuthority = [] ∧
      ('/' :: rest).dropWhile inAuthority = '/' :: rest := ⟨rfl, rfl⟩
  rw [readRtspUrl_of_toList hurl, List.takeWhile_append_of_pos hall,
    List.dropWhile_append_of_pos hall, hslash.1, hslash.2, List.append_nil,
    readAuthority_append hu hp (by decide) huser hpass, ← hpath,
    String.ofList_toList,
    String.ofList_toList, String.ofList_toList]

/-- The URL that opens a camera of this machine with these credentials. -/
def webcamUrl (user password : String) (i : ℕ) : RtspUrl where
  user := user
  password := password
  host := "127.0.0.1"
  port := "8554"
  path := webcamPath i

/-- **What is copied opens the camera**: in every reachable state, a player that
is given the URL of a row of the camera table asks for the path of the slot, and
logs in with the credentials in memory, with one exception. An empty user or an
empty password, as a `settings.json` that cannot be read leaves them, stands in
the URL as `viewer`; so the credentials are the ones in memory exactly if
neither is empty. -/
theorem copied_url_opens_camera {b : Boot} {steps : List Step}
    {sup : Supervisor}
    {i : ℕ} {s : CamSlot} (h : bootRun b steps = some sup)
    (hs : sup.slots[i]? = some s) :
    let url := readRtspUrl (CameraInfo.ofJson (sup.camJson s)).clipboardUrl
    url = some (webcamUrl (urlCredential sup.settings.viewerUser)
        (urlCredential sup.settings.viewerPass) i) ∧
      (url = some (webcamUrl sup.settings.viewerUser
          sup.settings.viewerPass i) ↔
        sup.settings.viewerUser ≠ "" ∧ sup.settings.viewerPass ≠ "") := by
  have hpath : s.cfg.rtspPath = webcamPath i := pathsInOrder_bootRun h i s hs
  have hslash : (CameraInfo.ofJson (sup.camJson s)).path.toList
      = '/' :: ("webcam" ++ toString i).toList := by
    show s.cfg.rtspPath.toList = _
    rw [hpath, webcamPath]
    simp
  have hurl : readRtspUrl (CameraInfo.ofJson (sup.camJson s)).clipboardUrl
      = some (webcamUrl (urlCredential sup.settings.viewerUser)
        (urlCredential sup.settings.viewerPass) i) := by
    rw [readRtspUrl_clipboardUrl hslash, webcamUrl, ← hpath]
    rfl
  refine ⟨hurl, ?_⟩
  rw [hurl, Option.some_inj, webcamUrl, webcamUrl, RtspUrl.mk.injEq]
  simp only [and_true, urlCredential_eq_self]

/-- The credentials are set to something full of separators. -/
def setSeparators : List Step :=
  [requestWith {} "set-viewer-credentials"
    [("user", .string "a@b"), ("pass", .string "p/w:%3A?#")]]

theorem copied_url_opens_camera_separators :
    ∃ sup s, bootRun oneCamera setSeparators = some sup ∧
      sup.slots[0]? = some s ∧
      readRtspUrl (CameraInfo.ofJson (sup.camJson s)).clipboardUrl
        = some (webcamUrl "a@b" "p/w:%3A?#" 0) := by
  have hrun : ((bootRun oneCamera setSeparators).bind (fun sup =>
      sup.slots[0]?.map (fun s => (sup, s)))).isSome = true := rfl
  obtain ⟨⟨sup, s⟩, hrun⟩ := Option.isSome_iff_exists.mp hrun
  obtain ⟨sup, hsup, hslot⟩ := Option.bind_eq_some_iff.mp hrun
  obtain ⟨s, hs, heq⟩ := Option.map_eq_some_iff.mp hslot
  obtain ⟨rfl, rfl⟩ := Prod.mk.inj heq
  have hviewer : (bootRun oneCamera setSeparators).map
      (fun sup => (sup.settings.viewerUser, sup.settings.viewerPass))
        = some ("a@b", "p/w:%3A?#") := by decide
  rw [hsup, Option.map_some, Option.some_inj, Prod.mk.injEq] at hviewer
  obtain ⟨huser, hpass⟩ := hviewer
  have hurl := (copied_url_opens_camera hsup hs).2
  rw [huser, hpass] at hurl
  exact ⟨sup, s, hsup, hs, hurl.mpr ⟨by decide, by decide⟩⟩

end WebcamStreamer
