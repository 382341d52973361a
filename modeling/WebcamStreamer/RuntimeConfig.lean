import WebcamStreamer.Credentials
import WebcamStreamer.YamlBlocks

/-!
# What MediaMTX reads

MediaMTX is started on a copy of a template in which the path of the event hook
and the credentials of the viewer were put for three placeholders, as they are.
The replacements go through the template line by line, so that loading the copy
comes down to what is read behind the colons of four keys.

None of the texts is escaped on the way, so that what is loaded depends on the
characters in them. The order of the replacements matters too: a text that was
inserted is searched for the placeholders that come later.
`load_mediamtxLines` keeps all of this in one statement, in which the three
texts are left open, and what they have to be like is the subject of another
module.
-/

namespace WebcamStreamer

open Yaml

/-! ## The template

The template is a list of lines with three placeholders in them, copied from
the source. The lines are grouped by what stands in them, and most of the
proofs only need that a group has no placeholder. -/

/-- The lines of `config/mediamtx.yml` before the viewer. -/
def serverLines : List String :=
  ["logLevel: info", "logDestinations: [stdout]", "rtsp: yes",
    "rtspAddress: :8554",
   "rtspTransports: [tcp]", "rtspAuthMethods: [digest]",
     "writeQueueSize: 4096", "rtmp: no",
   "hls: no", "webrtc: no", "srt: no", "authMethod: internal",
     "authInternalUsers:",
   "  - user: publisher", "    pass: publisher", "    ips: [127.0.0.1, ::1]",
     "    permissions:",
   "      - action: publish"]

/-- The lines with the placeholders of the viewer. -/
def viewerLines (user pass : Text) : List Text :=
  ["  # See main.cpp where".toList ++ ' '
    :: (user ++ ' ' :: ("/".toList ++ ' ' ::
      (pass ++ ' ' :: "get replaced.".toList))),
   "  - user:".toList ++ ' ' :: user,
   "    pass:".toList ++ ' ' :: pass]

/-- What the viewer may do. -/
def permissionLines : List String :=
  ["    permissions:", "      - action: read"]

/-- The comment with the placeholder of the hook. -/
def hookComment (hook : Text) : Text :=
  "# authenticates and starts/stops reading a path. The".toList ++ ' '
    :: (hook ++ ' ' ::
    "placeholder".toList)

/-- The lines between that comment and the hooks. -/
def pathLines : List String :=
  ["paths:", "  all_others:"]

/-- The lines with the placeholder of the hook. -/
def hookLines (hook : Text) : List Text :=
  ["    runOnRead:   '".toList ++ '"' :: (hook ++ '"' :: " read'".toList),
   "    runOnUnread: '".toList ++ '"' :: (hook ++ '"' :: " unread'".toList)]

/-- The lines of `config/mediamtx.yml` with texts in the places of the three
placeholders. Blank lines are left out, and so are the comments that have no
placeholder. -/
def mediamtxLines (user pass hook : Text) : List Text :=
  serverLines.map String.toList ++ viewerLines user pass
    ++ permissionLines.map String.toList
    ++ hookComment hook :: pathLines.map String.toList ++ hookLines hook

/-- `config/mediamtx.yml`. -/
def mediamtxYml : Text :=
  unlines (mediamtxLines "__VIEWER_USER__".toList "__VIEWER_PASS__".toList
    "__EVENT_HOOK__".toList)

/-! ## The runtime file

The file is written by replacing the three placeholders in the text one after
the other. The path of the hook is converted to the code page of the process
first, which can fail. -/

/-- `fs::path::string`: a path in the code page of the process, as it reads as
UTF-8; none when the path has a character the code page lacks, or when it is no
UTF-8. No code page makes a line break of anything else. -/
structure CodePage where
  narrow : Text → Option Text
  noBreak :
    ∀ {path t : Text}, narrow path = some t → (∀ c ∈ path, isBreak c = false) →
    ∀ c ∈ t, isBreak c = false

/-- A code page that has every character. -/
def CodePage.utf8 : CodePage where
  narrow := some
  noBreak := by
    rintro path t ht
    obtain rfl := Option.some.inj ht
    exact id

/-- What `writeRuntimeYml` makes of a template: the three replacements. -/
def substituted (template hook : Text) (c : Credentials) : Text :=
  let contents := Replace.replaceAll "__EVENT_HOOK__".toList hook template
  let contents :=
    Replace.replaceAll "__VIEWER_USER__".toList c.1.toList contents
  Replace.replaceAll "__VIEWER_PASS__".toList c.2.toList contents

/-- What `writeRuntimeYml` writes. -/
def runtimeContents (codePage : CodePage) (hookExe : Text) (c : Credentials) :
    Option Text :=
  (codePage.narrow hookExe).map (fun hook => substituted mediamtxYml hook c)

/-! ## The keys of the values

The four values that were pasted are found again under four keys. Two of these
belong to the second entry of a sequence, and two to the paths without a
name. -/

/-- A key of the second entry of `authInternalUsers`. -/
def viewerKey (key : String) : Path :=
  [.key key.toList, .item 1, .key "authInternalUsers".toList]

/-- A key of the paths that are not named. -/
def hookKey (key : String) : Path :=
  [.key key.toList, .key "all_others".toList, .key "paths".toList]

/-! ## The replacements, line by line

A replacement works on the whole text, but it does not look across a character
that the placeholder does not have. Line breaks and quotation marks are such
characters, so that it can be followed line by line. -/

/-- The placeholders of the template. -/
def placeholders : List Text :=
  ["__EVENT_HOOK__".toList, "__VIEWER_USER__".toList, "__VIEWER_PASS__".toList]

/-- The lines without a placeholder. -/
def fixedLines : List String := serverLines ++ permissionLines ++ pathLines

/-- The parts of the other lines between the placeholders and the marks around
them. -/
def fixedParts : List String :=
  ["  # See main.cpp where", "/", "get replaced.", "  - user:", "    pass:",
   "# authenticates and starts/stops reading a path. The", "placeholder",
   "    runOnRead:   '", " read'", "    runOnUnread: '", " unread'"]

section Placeholders

variable {placeholder : Text} (hph : placeholder ∈ placeholders)

include hph

theorem placeholder_ne_nil : placeholder ≠ [] := by
  have hall : ∀ ph ∈ placeholders, ph ≠ [] := by decide
  exact hall placeholder hph

/-- No mark that stands around a placeholder is a part of one. -/
theorem notMem_placeholder {c : Char} (hc : c ∈ [' ', '"', '\n']) :
    c ∉ placeholder := by
  have hall : ∀ ph ∈ placeholders,
      [' ', '"', '\n'].all (fun d => !ph.contains d) = true := by
    decide +kernel
  simpa using List.all_eq_true.mp (hall placeholder hph) c hc

theorem replaceAll_fixedLine (value : Text) {l : String} (hl : l ∈ fixedLines) :
    Replace.replaceAll placeholder value l.toList = l.toList := by
  have hall : ∀ ph ∈ placeholders, ∀ l ∈ fixedLines, ¬ ph <:+: l.toList := by
    decide +kernel
  exact Replace.replaceAll_of_not_infix (hall placeholder hph l hl)

theorem replaceAll_fixedPart (value : Text) {s : String} (hs : s ∈ fixedParts) :
    Replace.replaceAll placeholder value s.toList = s.toList := by
  have hall : ∀ ph ∈ placeholders, ∀ s ∈ fixedParts, ¬ ph <:+: s.toList := by
    decide +kernel
  exact Replace.replaceAll_of_not_infix (hall placeholder hph s hs)

/-- A replacement does not look across a mark. -/
theorem replaceAll_mark (value before after : Text) {c : Char}
    (hc : c ∈ [' ', '"', '\n']) :
    Replace.replaceAll placeholder value (before ++ c :: after)
      = Replace.replaceAll placeholder value before
        ++ c :: Replace.replaceAll placeholder value after :=
  Replace.replaceAll_append_cons (placeholder_ne_nil hph)
    (notMem_placeholder hph hc) before after

/-- A replacement goes through a text line by line. -/
theorem replaceAll_unlines (value : Text) (ls : List Text) :
    Replace.replaceAll placeholder value (unlines ls)
      = unlines (ls.map (Replace.replaceAll placeholder value)) := by
  have hcons : ∀ (l : Text) (ls : List Text),
      unlines (l :: ls) = l ++ '\n' :: unlines ls := by
    simp [unlines]
  induction ls with
  | nil => rfl
  | cons l ls ih =>
    rw [hcons, replaceAll_mark hph value _ _ (by decide), ih,
      List.map_cons, hcons]

/-- The lines without a placeholder stay. -/
theorem map_replaceAll_fixedLines (value : Text) (ls : List String)
    (h : ls ⊆ fixedLines) :
    (ls.map String.toList).map (Replace.replaceAll placeholder value) = ls.map
      String.toList := by
  rw [List.map_map]
  exact List.map_congr_left (fun l hl => replaceAll_fixedLine hph value (h hl))

/-- A replacement stops at a mark behind a part without a placeholder. -/
theorem replaceAll_behind (value : Text) {s : String}
    (hs : s ∈ fixedParts) {c : Char}
    (hc : c ∈ [' ', '"', '\n']) (rest : Text) :
    Replace.replaceAll placeholder value (s.toList ++ c :: rest)
      = s.toList ++ c :: Replace.replaceAll placeholder value rest := by
  rw [replaceAll_mark hph value _ _ hc, replaceAll_fixedPart hph value hs]

/-- A replacement starts anew at a mark before a part without a placeholder. -/
theorem replaceAll_before (value before : Text) {s : String}
    (hs : s ∈ fixedParts) {c : Char}
    (hc : c ∈ [' ', '"', '\n']) :
    Replace.replaceAll placeholder value (before ++ c :: s.toList)
      = Replace.replaceAll placeholder value before ++ c :: s.toList := by
  rw [replaceAll_mark hph value _ _ hc, replaceAll_fixedPart hph value hs]

theorem map_replaceAll_viewerLines (value user pass : Text) :
    (viewerLines user pass).map (Replace.replaceAll placeholder value)
      = viewerLines (Replace.replaceAll placeholder value user)
          (Replace.replaceAll placeholder value pass) := by
  have hcomment : Replace.replaceAll placeholder value
      ("  # See main.cpp where".toList ++ ' '
        :: (user ++ ' ' :: ("/".toList ++ ' ' ::
        (pass ++ ' ' :: "get replaced.".toList))))
      = "  # See main.cpp where".toList ++ ' '
        :: (Replace.replaceAll placeholder value user
        ++ ' ' :: ("/".toList ++ ' '
          :: (Replace.replaceAll placeholder value pass
          ++ ' ' :: "get replaced.".toList))) := by
    rw [replaceAll_behind hph value (by simp [fixedParts]) (by simp),
      replaceAll_mark hph value user _ (by simp),
      replaceAll_behind hph value (s := "/") (by simp [fixedParts]) (by simp),
      replaceAll_before hph value pass (by simp [fixedParts]) (by simp)]
  exact congrArg₂ List.cons hcomment
    (congrArg₂ List.cons
      (replaceAll_behind hph value (by simp [fixedParts]) (by simp) user)
      (congrArg₂ List.cons (replaceAll_behind hph value (by simp [fixedParts])
        (by simp) pass) rfl))

theorem replaceAll_hookComment (value hook : Text) :
    Replace.replaceAll placeholder value (hookComment hook)
      = hookComment (Replace.replaceAll placeholder value hook) := by
  unfold hookComment
  rw [replaceAll_behind hph value (by simp [fixedParts]) (by simp),
    replaceAll_before hph value hook (by simp [fixedParts]) (by simp)]

theorem map_replaceAll_hookLines (value hook : Text) :
    (hookLines hook).map (Replace.replaceAll placeholder value)
      = hookLines (Replace.replaceAll placeholder value hook) := by
  have hline : ∀ s s' : String, s ∈ fixedParts → s' ∈ fixedParts →
      Replace.replaceAll placeholder value
        (s.toList ++ '"' :: (hook ++ '"' :: s'.toList))
        = s.toList ++ '"'
        :: (Replace.replaceAll placeholder value hook ++ '"' :: s'.toList) := by
    intro s s' hs hs'
    rw [replaceAll_behind hph value hs (by simp),
      replaceAll_before hph value hook hs' (by simp)]
  exact congrArg₂ List.cons
    (hline _ _ (by simp [fixedParts]) (by simp [fixedParts]))
    (congrArg₂ List.cons
      (hline _ _ (by simp [fixedParts]) (by simp [fixedParts])) rfl)

/-- **A replacement in the template** is one in the texts that stand in it.
The fixed text of the template has no placeholder across its seams, whatever
the texts are that stand in it. -/
theorem map_replaceAll_mediamtxLines (value user pass hook : Text) :
    (mediamtxLines user pass hook).map (Replace.replaceAll placeholder value)
      = mediamtxLines (Replace.replaceAll placeholder value user)
          (Replace.replaceAll placeholder value pass)
          (Replace.replaceAll placeholder value hook) := by
  simp only [mediamtxLines, List.map_append, List.map_cons]
  rw [map_replaceAll_fixedLines hph value serverLines (by simp [fixedLines]),
    map_replaceAll_fixedLines hph value permissionLines (by simp [fixedLines]),
    map_replaceAll_fixedLines hph value pathLines (by simp [fixedLines]),
    map_replaceAll_viewerLines hph, replaceAll_hookComment hph,
    map_replaceAll_hookLines hph]

end Placeholders

/-! ## The runtime file, line by line

The three replacements are now one list of lines. The user is pasted before
the placeholder of the password is looked for, so that a user with that
placeholder in it is changed once more. -/

/-- What a placeholder is replaced by. -/
theorem replaceAll_placeholder {placeholder : Text}
    (hph : placeholder ∈ placeholders)
    (value : Text) :
    Replace.replaceAll placeholder value placeholder = value := by
  have hfront := @Replace.replaceAll_append_of_front _ _ placeholder value
    (placeholder_ne_nil hph) []
  simpa using hfront

/-- The text that stands for the path of the hook. -/
def substitutedHook (c : Credentials) (hook : Text) : Text :=
  Replace.replaceAll "__VIEWER_PASS__".toList c.2.toList
    (Replace.replaceAll "__VIEWER_USER__".toList c.1.toList hook)

/-- **The runtime file** has the lines of the template, with the entry of the
viewer and with a text for the path. -/
theorem runtimeContents_eq (codePage : CodePage) (hookExe : Text)
    (c : Credentials) :
    runtimeContents codePage hookExe c
      = (codePage.narrow hookExe).map fun hook =>
      unlines (mediamtxLines (substitutedEntry c).1.toList
        (substitutedEntry c).2.toList
        (substitutedHook c hook)) := by
  have hhook : "__EVENT_HOOK__".toList ∈ placeholders := by decide
  have huser : "__VIEWER_USER__".toList ∈ placeholders := by decide
  have hpass : "__VIEWER_PASS__".toList ∈ placeholders := by decide
  have hother : ∀ ph ∈ placeholders, ∀ ph' ∈ placeholders, ph ≠ ph' →
      ¬ ph <:+: ph' := by
    decide +kernel
  have hstays : ∀ ph ∈ placeholders, ∀ ph' ∈ placeholders, ph ≠ ph' → ∀ value,
      Replace.replaceAll ph value ph' = ph' := fun ph h ph' h' hne value =>
    Replace.replaceAll_of_not_infix (hother ph h ph' h' hne)
  unfold runtimeContents substituted mediamtxYml
  refine congrArg (fun f => (codePage.narrow hookExe).map f)
    (funext fun hook => ?_)
  simp only [replaceAll_unlines hhook, replaceAll_unlines huser,
    replaceAll_unlines hpass,
    map_replaceAll_mediamtxLines hhook, map_replaceAll_mediamtxLines huser,
    map_replaceAll_mediamtxLines hpass]
  rw [hstays _ hhook _ huser (by decide), hstays _ hhook _ hpass (by decide),
    hstays _ huser _ hpass (by decide), replaceAll_placeholder hhook,
    replaceAll_placeholder huser,
    replaceAll_placeholder hpass]
  simp [substitutedEntry, substitutedHook]

/-! ## The settings of the file

Reading the lines gives entries, and placing the entries gives paths. Neither
depends on the values, except for the nodes behind four colons, so that the
settings are those of the template with four values in them. -/

/-- The entries of lines that are read. -/
def entriesOf (ls : List String) : List Entry :=
  (readLines (ls.map String.toList)).getD []

theorem readLines_eq_entriesOf {ls : List String}
    (h : ls ∈ [serverLines, permissionLines, pathLines]) :
    readLines (ls.map String.toList) = some (entriesOf ls) := by
  have hall : ∀ ls ∈ [serverLines, permissionLines, pathLines],
      (readLines (ls.map String.toList)).isSome = true := by decide +kernel
  obtain ⟨es, hes⟩ := Option.isSome_iff_exists.mp (hall ls h)
  rw [entriesOf, hes, Option.getD_some]

/-- The entries of the template with nodes for the four values. -/
def mediamtxEntries (user pass onRead onUnread : Node) : List Entry :=
  entriesOf serverLines
    ++ [⟨2, 4, "user".toList, user⟩, ⟨4, 4, "pass".toList, pass⟩]
    ++ entriesOf permissionLines ++ entriesOf pathLines
    ++ [⟨4, 4, "runOnRead".toList, onRead⟩,
      ⟨4, 4, "runOnUnread".toList, onUnread⟩]

/-- What stands behind the colon of a hook, with the spaces before it. -/
def hookText (spaces : ℕ) (hook : Text) (event : String) : Text :=
  List.replicate spaces ' ' ++ '\'' :: '"'
    :: (hook ++ '"' :: ' ' :: (event.toList ++ ['\'']))

/-- The comment in front of the viewer is skipped, whatever the credentials
are. -/
theorem readLines_viewerLines (user pass : Text) :
    readLines (viewerLines user pass) = (readNode (' ' :: user)).bind fun n =>
      (readNode (' ' :: pass)).map fun n' =>
        [⟨2, 4, "user".toList, n⟩, ⟨4, 4, "pass".toList, n'⟩] := by
  have hcomment :=
    readLine_comment 2 (" See main.cpp where".toList ++ ' ' :: (user ++ ' ' ::
    ("/".toList ++ ' ' :: (pass ++ ' ' :: "get replaced.".toList))))
  have huser :=
    @readLine_item 2 "user".toList (by decide) (by decide) (' ' :: user) rfl
  have hpass :=
    @readLine_key 4 "pass".toList (by decide) (by decide) (' ' :: pass) rfl
  have hlines : viewerLines user pass
      = [List.replicate 2 ' ' ++ '#'
        :: (" See main.cpp where".toList ++ ' ' :: (user ++ ' ' ::
          ("/".toList ++ ' ' :: (pass ++ ' ' :: "get replaced.".toList)))),
         List.replicate 2 ' ' ++ '-' :: ' '
           :: ("user".toList ++ ':' :: ' ' :: user),
         List.replicate 4 ' ' ++ ("pass".toList ++ ':' :: ' ' :: pass)] := rfl
  rw [hlines, readLines, readLines, readLines, readLines, hcomment,
    huser, hpass]
  cases readNode (' ' :: user) <;> cases readNode (' ' :: pass) <;> rfl

theorem readLines_hookLines (hook : Text) :
    readLines (hookLines hook)
      = (readNode (hookText 3 hook "read")).bind fun n =>
      (readNode (hookText 1 hook "unread")).map fun n' =>
        [⟨4, 4, "runOnRead".toList, n⟩, ⟨4, 4, "runOnUnread".toList, n'⟩] := by
  have hread := @readLine_key 4 "runOnRead".toList (by decide) (by decide)
    (hookText 3 hook "read") rfl
  have hunread := @readLine_key 4 "runOnUnread".toList (by decide) (by decide)
    (hookText 1 hook "unread") rfl
  have hlines : hookLines hook
      = [List.replicate 4 ' '
        ++ ("runOnRead".toList ++ ':' :: hookText 3 hook "read"),
         List.replicate 4 ' '
         ++ ("runOnUnread".toList ++ ':' :: hookText 1 hook "unread")] := rfl
  rw [hlines, readLines, readLines, readLines, hread, hunread]
  cases readNode (hookText 3 hook "read") <;>
    cases readNode (hookText 1 hook "unread") <;> rfl

/-- **The entries of the template** with texts in the places of the
placeholders. The fixed lines are read once and for all, and what is left on
the right are the four nodes that depend on the texts. -/
theorem readLines_mediamtxLines (user pass hook : Text) :
    readLines (mediamtxLines user pass hook)
      = (readNode (' ' :: user)).bind fun n₁ =>
      (readNode (' ' :: pass)).bind fun n₂ =>
        (readNode (hookText 3 hook "read")).bind fun n₃ =>
        (readNode (hookText 1 hook "unread")).map fun n₄ =>
          mediamtxEntries n₁ n₂ n₃ n₄ := by
  have hcomment : readLine (hookComment hook) = some none :=
    readLine_comment 0 _
  have hpaths : readLines (hookComment hook :: pathLines.map String.toList)
      = some (entriesOf pathLines) := by
    rw [readLines, hcomment, readLines_eq_entriesOf (by simp)]
    rfl
  rw [mediamtxLines, readLines_append, readLines_append, readLines_append,
    readLines_append,
    hpaths, readLines_eq_entriesOf (by simp), readLines_eq_entriesOf (by simp),
    readLines_viewerLines, readLines_hookLines]
  cases readNode (' ' :: user) <;> cases readNode (' ' :: pass) <;>
    cases readNode (hookText 3 hook "read") <;>
    cases readNode (hookText 1 hook "unread") <;> rfl

/-- The paths to the settings of the server. -/
def serverPaths : List Path :=
  (paths ((entriesOf serverLines).map Entry.shape)).getD []

/-- The paths to the settings between the credentials and the hooks. -/
def middlePaths : List Path :=
  [viewerKey "permissions",
    .key "action".toList :: .item 0 :: viewerKey "permissions",
   [.key "paths".toList], [.key "all_others".toList, .key "paths".toList]]

/-- The keys do not depend on the values. -/
theorem paths_mediamtxEntries (n₁ n₂ n₃ n₄ : Node) :
    paths ((mediamtxEntries n₁ n₂ n₃ n₄).map Entry.shape)
      = some (serverPaths ++ [viewerKey "user", viewerKey "pass"] ++ middlePaths
          ++ [hookKey "runOnRead", hookKey "runOnUnread"]) := by
  have hall : ∀ b₁ b₂ b₃ b₄ : Bool,
      paths ((entriesOf serverLines).map Entry.shape
        ++ [⟨2, 4, "user".toList, b₁⟩, ⟨4, 4, "pass".toList, b₂⟩]
        ++ (entriesOf permissionLines).map Entry.shape
        ++ (entriesOf pathLines).map Entry.shape
        ++ [⟨4, 4, "runOnRead".toList, b₃⟩, ⟨4, 4, "runOnUnread".toList, b₄⟩])
      = some (serverPaths ++ [viewerKey "user", viewerKey "pass"] ++ middlePaths
          ++ [hookKey "runOnRead", hookKey "runOnUnread"]) := by
    decide +kernel
  rw [← hall (n₁ = .missing) (n₂ = .missing) (n₃ = .missing) (n₄ = .missing)]
  simp only [mediamtxEntries, List.map_append]
  rfl

/-- The settings of the template with four values. -/
def mediamtxSettings (isString : Text → Bool)
    (user pass onRead onUnread : Value) : List (Path × Value) :=
  serverPaths.zip ((entriesOf serverLines).map (fun e => e.node.value isString))
    ++ [(viewerKey "user", user), (viewerKey "pass", pass)]
    ++ middlePaths.zip ((entriesOf permissionLines ++ entriesOf pathLines).map
      (fun e => e.node.value isString))
    ++ [(hookKey "runOnRead", onRead), (hookKey "runOnUnread", onUnread)]

theorem map_value_zip (isString : Text → Bool) (ps : List Path)
    (es : List Entry) :
    (ps.zip (es.map Entry.node)).map (fun s => (s.1, s.2.value isString))
      = ps.zip (es.map (fun e => e.node.value isString)) := by
  rw [List.zip_map_right, List.zip_map_right, List.map_map]
  rfl

/-- The nodes of the template as values. -/
theorem map_value_mediamtxEntries (isString : Text → Bool)
    (n₁ n₂ n₃ n₄ : Node) :
    (((serverPaths ++ [viewerKey "user", viewerKey "pass"] ++ middlePaths
        ++ [hookKey "runOnRead", hookKey "runOnUnread"]).zip
          ((mediamtxEntries n₁ n₂ n₃ n₄).map Entry.node)).map fun s => (s.1,
            s.2.value isString))
      = mediamtxSettings isString (n₁.value isString) (n₂.value isString)
        (n₃.value isString)
          (n₄.value isString) := by
  have hserver : serverPaths.length
      = ((entriesOf serverLines).map Entry.node).length := by
    decide +kernel
  have hmiddle : middlePaths.length
      = ((entriesOf permissionLines ++ entriesOf pathLines).map
        Entry.node).length := by
    decide +kernel
  have hnodes : (mediamtxEntries n₁ n₂ n₃ n₄).map Entry.node
      = (entriesOf serverLines).map Entry.node ++ [n₁, n₂]
        ++ (entriesOf permissionLines ++ entriesOf pathLines).map Entry.node
        ++ [n₃, n₄] := by
    simp only [mediamtxEntries, List.map_append, List.append_assoc]
    rfl
  have hfront : (serverPaths ++ [viewerKey "user", viewerKey "pass"]).length
      = ((entriesOf serverLines).map Entry.node ++ [n₁, n₂]).length := by
    rw [List.length_append, List.length_append, hserver]
    rfl
  have hbefore : (serverPaths ++ [viewerKey "user",
      viewerKey "pass"] ++ middlePaths).length
      = ((entriesOf serverLines).map Entry.node ++ [n₁, n₂]
        ++ (entriesOf permissionLines ++ entriesOf pathLines).map
          Entry.node).length := by
    rw [List.length_append, hfront, hmiddle, ← List.length_append]
  rw [hnodes, List.zip_append hbefore, List.zip_append hfront,
    List.zip_append hserver,
    List.map_append, List.map_append, List.map_append, map_value_zip,
    map_value_zip]
  rfl

/-- **Loading the file** gives the settings of the template, with the values
of what stands in the places of the placeholders. The four values come at the
positions of the template in which the placeholders stood, with the same
keys. -/
theorem load_mediamtxLines (isString : Text → Bool) {user pass hook : Text}
    (h : ∀ l ∈ mediamtxLines user pass hook, Printable l) :
    load isString (unlines (mediamtxLines user pass hook))
      = (readNode (' ' :: user)).bind fun n₁ =>
      (readNode (' ' :: pass)).bind fun n₂ =>
        (readNode (hookText 3 hook "read")).bind fun n₃ =>
        (readNode (hookText 1 hook "unread")).map fun n₄ =>
          mediamtxSettings isString (n₁.value isString) (n₂.value isString)
            (n₃.value isString)
            (n₄.value isString) := by
  rw [load, nodes_unlines h, readLines_mediamtxLines]
  cases readNode (' ' :: user) with
  | none => rfl
  | some n₁ =>
    cases readNode (' ' :: pass) with
    | none => rfl
    | some n₂ =>
      cases readNode (hookText 3 hook "read") with
      | none => rfl
      | some n₃ =>
        cases readNode (hookText 1 hook "unread") with
        | none => rfl
        | some n₄ =>
          simp only [Option.bind_some, Option.map_some, paths_mediamtxEntries,
            map_value_mediamtxEntries]

end WebcamStreamer
