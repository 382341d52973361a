import WebcamStreamer.Restore

/-!
# Whose override a file is

An override file is found by the slug of the camera's name, which keeps ASCII
letters and digits and makes one dash of everything else. Different names can
have one slug: `Cam 1` and `Cam-1`, or any two names without a Latin letter or a
digit, whose slug is empty. Each of two such cameras then stores its settings in
the other's file, and reads them the next time it is resolved.

One kind of name cannot do that: a name with a Control-Z ends its own file, so
that whatever is stored under it reads as a file that says nothing.
-/

namespace WebcamStreamer

/-! ## The last line of a file

Whether a camera is enabled stands on the last line that is written. That line
is the one that shows whether a file was changed, and it is read back whatever
stands on the lines before it. -/

/-- A character that is no newline begins the first line. -/
theorem getlines_cons {c : Char} (hc : c ≠ '\n') {t l : Text} {ls : List Text}
    (h : getlines t = l :: ls) : getlines (c :: t) = (c :: l) :: ls := by
  rw [getlines, h]
  exact hc

/-- Whatever stands before a newline, the lines after it are read as they
are. -/
theorem getlines_append_newline (t rest : Text) :
    ∃ l ls, getlines (t ++ ['\n']) = l :: ls ∧
      getlines (t ++ '\n' :: rest) = l :: ls ++ getlines rest := by
  induction t with
  | nil => exact ⟨[], [], rfl, rfl⟩
  | cons c t ih =>
    obtain ⟨l, ls, hline, hrest⟩ := ih
    by_cases hc : c = '\n'
    · subst hc
      exact ⟨[], l :: ls, congrArg ([] :: ·) hline, congrArg ([] :: ·) hrest⟩
    · exact ⟨c :: l, ls, getlines_cons hc hline, getlines_cons hc hrest⟩

/-- A text of whole lines stays one when a field is written, or left out. -/
theorem newline_append_field {α : Type} {t : Text} (h : ∃ t', t = t' ++ ['\n'])
    (opt : Option α) (key : String) (shown : α → String) :
    ∃ t', t ++ opt.elim [] (fun a => CameraOverride.line key (shown a))
      = t' ++ ['\n'] := by
  cases opt with
  | none => simpa using h
  | some a =>
    exact ⟨t ++ (key.toList ++ '=' :: (shown a).toList),
      by simp [CameraOverride.line]⟩

/-- Whether the camera is enabled stands on the last line that is written, and
is read back unless the name ends the file. -/
theorem enabled_ofText_toText {o : CameraOverride} {want : Bool}
    (h : o.enabled = some want) {name : String}
    (hname : fileMode.endOfFile ∉ name.toList) :
    (CameraOverride.ofText (o.toText name)).enabled = some want := by
  obtain ⟨t, ht⟩ :=
    newline_append_field (newline_append_field (newline_append_field
    (newline_append_field ⟨"camera".toList ++ '=' :: name.toList,
      rfl⟩ o.mode "mode" modeName)
    o.width "width" toString) o.height "height" toString) o.fps "fps" toString
  rw [CameraOverride.ofText, CameraOverride.toText,
    TextMode.read_write_of_notMem (o.endOfFile_notMem_inserted hname)]
  unfold CameraOverride.ofLines CameraOverride.inserted
  rw [h, Option.elim_some]
  obtain ⟨l, ls, -, hrest⟩ := getlines_append_newline t
    (CameraOverride.line "enabled" (if want then "true" else "false"))
  have hlines : getlines
      (CameraOverride.line "enabled" (if want then "true" else "false"))
      = ["enabled".toList ++ '='
        :: (if want then "true" else "false").toList] := by
    cases want <;> rfl
  rw [hlines] at hrest
  have hall := congrArg (fun p => getlines (p ++
    CameraOverride.line "enabled" (if want then "true" else "false"))) ht
  rw [List.append_assoc t, List.singleton_append, hrest] at hall
  refine (congrArg (fun ls => (ls.foldl CameraOverride.readLine {}).enabled)
    hall).trans ?_
  rw [List.foldl_append, List.foldl_cons, List.foldl_nil]
  cases want <;> rfl

/-! ## Independence

Two cameras are independent if no sequence of requests for one of them changes
what the other one resolves to. A request touches only the file of its own
slug, so that different files are independent; the converse is shown by
enabling and disabling. -/

/-- The step is a `set-mode` or a `set-stream-enabled` for the camera with this
name. -/
def Configures (nm : String) (st : Step) : Prop :=
  SetsMode nm st ∨ SetsEnabled nm st

/-- Whatever is configured for the camera `nm`, the override of `nm'` stays, and
so does what `nm'` resolves to. -/
def OverrideIndependent (sup : Supervisor) (nm nm' : String) : Prop :=
  ∀ steps sup', (∀ st ∈ steps, Configures nm st) →
    Runs.run next sup steps = some sup' →
    (∀ ops, loadOverride ops (sup'.disk.override nm')
        = loadOverride ops (sup.disk.override nm')) ∧
      ∀ ops defaultEnabled device formats cc, device.friendlyName = nm' →
        resolveCameraConfig ops sup'.disk sup'.knownDb defaultEnabled
          device formats cc
          = resolveCameraConfig ops sup.disk sup.knownDb defaultEnabled
            device formats cc

/-- What a save leaves is some override that was written. -/
theorem file_of_saveOverride {ops : FileOps} {file file' : Option Text}
    {name : String} {update : CameraOverride} {flag : Bool}
    (h : saveOverride ops file name update = .ok (flag, file')) :
    ∃ o : CameraOverride, file' = ops.write.contents file (o.toText name) := by
  unfold saveOverride at h
  split at h
  next => cases h
  next existing _ =>
    exact ⟨_, (Prod.mk.inj (Except.ok.inj h)).2.symm⟩

/-- **A step for one camera** leaves the override files alone, or saves in the
file of its slug. The second case includes failures: the contents are what the
outcome of the write has left of the new text. -/
theorem overrides_step {sup : Supervisor} {st : Step} {out : Outcome}
    {nm : String} (h : step sup st = some out) (hst : Configures nm st) :
    (∀ nm', out.1.disk.override nm' = sup.disk.override nm') ∨
      ∃ (w : WriteOutcome) (o : CameraOverride),
        out.1.disk = sup.disk.withOverride nm
          (w.contents (sup.disk.override nm) (o.toText nm)) := by
  obtain ⟨rq, hrq⟩ : ∃ rq, st.action = .request rq := by
    rcases hst with ⟨rq, -, -, ha, -⟩ | ⟨rq, ha, -⟩
    · exact ⟨rq, ha⟩
    · exact ⟨rq, ha⟩
  cases stepsTo_of_step h with
  | @served rq' served ha heq hserved =>
    cases hserved with
    | @modeSet name parsed upd i s flag file result hm hp hne' hmode hs hsave =>
      -- the request names the camera that the step is for
      rcases hst with ⟨rq'', parsed', upd', ha', hm', hp'⟩ | ⟨rq'',
        ha', hm', hp'⟩
      · obtain rfl := Action.request.inj (ha.symm.trans ha')
        obtain ⟨rfl, -⟩ := Prod.mk.inj (Except.ok.inj (hp.symm.trans hp'))
        obtain ⟨o, rfl⟩ := file_of_saveOverride hsave
        exact .inr ⟨_, o, rfl⟩
      · obtain rfl := Action.request.inj (ha.symm.trans ha')
        exact absurd (hm.symm.trans hm') (by decide)
    | @enabledSet name want i s flag file result hm hp hne' hwant hs hsave =>
      rcases hst with ⟨rq'', parsed', upd', ha', hm', hp'⟩ | ⟨rq'',
        ha', hm', hp'⟩
      · obtain rfl := Action.request.inj (ha.symm.trans ha')
        exact absurd (hm.symm.trans hm') (by decide)
      · obtain rfl := Action.request.inj (ha.symm.trans ha')
        obtain rfl := Except.ok.inj (hp.symm.trans hp')
        obtain ⟨o, rfl⟩ := file_of_saveOverride hsave
        exact .inr ⟨_, o, rfl⟩
    | credentialsSet hm hu hu0 hp hp0 hsave hyml ht =>
      subst ht
      exact .inl (fun _ => rfl)
    | _ => exact .inl (fun _ => rfl)
  | hookIgnored ha | hookCounted ha | publisherExit ha | mtxExit ha
  | consoleSignal ha
  | editSettings ha | beginLoop ha | tick ha | diffPresence ha
  | reconciled ha =>
    exact Action.noConfusion (hrq.symm.trans ha)

/-- A step for one camera touches no file but that of its slug. -/
theorem override_step {sup : Supervisor} {st : Step} {out : Outcome}
    {nm nm' : String} (h : step sup st = some out) (hst : Configures nm st)
    (hne : sup.disk.overrideKey nm' ≠ sup.disk.overrideKey nm) :
    out.1.disk.override nm' = sup.disk.override nm' := by
  rcases overrides_step h hst with hsame | ⟨w, o, hdisk⟩
  · exact hsame nm'
  · rw [hdisk, Disk.override_withOverride_of_ne _ hne]

/-- It leaves another camera with the same file as it was, or saves an override
in it under the name of the first. -/
theorem override_step_of_eq {sup : Supervisor} {st : Step} {out : Outcome}
    {nm nm' : String} (h : step sup st = some out) (hst : Configures nm st)
    (heq : sup.disk.overrideKey nm' = sup.disk.overrideKey nm) :
    out.1.disk.override nm' = sup.disk.override nm' ∨
      ∃ (w : WriteOutcome) (o : CameraOverride), out.1.disk.override nm'
        = w.contents (sup.disk.override nm') (o.toText nm) := by
  have hfile : sup.disk.override nm' = sup.disk.override nm :=
    congrArg sup.disk.overrides heq
  rcases overrides_step h hst with hsame | ⟨w, o, hdisk⟩
  · exact .inl (hsame nm')
  · exact .inr ⟨w, o, by
      rw [hdisk, Disk.override_withOverride_of_eq _ heq, hfile]⟩

/-- Resolving a camera loads one override. -/
theorem resolveCameraConfig_congr {ops : FileOps} {disk disk' : Disk}
    {db : KnownCameraDb} {defaultEnabled : Bool} {device : CameraDevice}
    {formats : List AdvertisedFormat} {cc : CameraConfig}
    (h : loadOverride ops (disk'.override device.friendlyName)
      = loadOverride ops (disk.override device.friendlyName)) :
    resolveCameraConfig ops disk' db defaultEnabled device formats cc
      = resolveCameraConfig ops disk db defaultEnabled device formats cc := by
  unfold resolveCameraConfig
  rw [h]

/-- What is kept of the second camera while the first one is configured. -/
theorem overrideIndependent_of_kept {sup : Supervisor} {nm nm' : String}
    (kept : Disk → Prop) (hkept : kept sup.disk)
    (hload : ∀ disk, kept disk → ∀ ops, loadOverride ops (disk.override nm')
      = loadOverride ops (sup.disk.override nm'))
    (hstep : ∀ (t : Supervisor) (st : Step) (out : Outcome),
      t.disk.fileKey = sup.disk.fileKey → kept t.disk →
      step t st = some out → Configures nm st → kept out.1.disk) :
    OverrideIndependent sup nm nm' := by
  intro steps sup' hsteps hrun
  have hguarded : Runs.Guarded next (fun _ st => Configures nm st) sup steps :=
    Runs.guarded_of_forall_mem (fun st hst _ => hsteps st hst)
  obtain ⟨-, hdisk, hdb⟩ : sup'.disk.fileKey = sup.disk.fileKey ∧
      kept sup'.disk ∧ sup'.knownDb = sup.knownDb := by
    refine Runs.run_invariant (fun t => t.disk.fileKey = sup.disk.fileKey ∧
      kept t.disk ∧ t.knownDb = sup.knownDb)
      (fun t st t' ht hst hnext => ?_) ⟨rfl, hkept, rfl⟩ hguarded hrun
    obtain ⟨hkey, hdisk, hdb⟩ := ht
    obtain ⟨out, hout, rfl⟩ := Option.map_eq_some_iff.mp hnext
    obtain ⟨-, hdb', hkey'⟩ := fixed_step hout
    exact ⟨hkey'.trans hkey, hstep t st out hkey hdisk hout hst,
      hdb'.trans hdb⟩
  refine ⟨hload _ hdisk, fun ops defaultEnabled device formats cc hname => ?_⟩
  subst hname
  rw [resolveCameraConfig_congr (hload _ hdisk ops), hdb]

/-- **Different files are independent**, over any sequence of requests. A
request finds its slot by the name it has, and saves under the name of that
slot and no other. -/
theorem overrideIndependent_of_ne {sup : Supervisor} {nm nm' : String}
    (hne : sup.disk.overrideKey nm' ≠ sup.disk.overrideKey nm) :
    OverrideIndependent sup nm nm' := by
  refine overrideIndependent_of_kept
    (fun disk => disk.override nm' = sup.disk.override nm') rfl
    (fun disk h ops => by rw [h]) (fun t st out hkey ht hstep hst => ?_)
  -- the two files are different ones throughout
  have hne' : t.disk.overrideKey nm' ≠ t.disk.overrideKey nm := by
    unfold Disk.overrideKey at hne ⊢
    rwa [hkey]
  exact (override_step hstep hst hne').trans ht

/-! ## Names that end their file

A name can contain the character that ends a file in text mode, and then
nothing that is saved under it is ever loaded again. Two such names may share
a file without harm, which is why the slugs alone do not decide. -/

/-- The line with a name says nothing, however much of it there is. -/
def SaysNothing (nm : String) : Prop :=
  ∀ n, CameraOverride.ofText
    ((fileMode.write (CameraOverride.line "camera" nm)).take n) = {}

/-- What is read of a file does not depend on what stands behind the character
that ends it. -/
theorem ofText_append_of_mem {file : Text} (h : fileMode.endOfFile ∈ file)
    (rest : Text) :
    CameraOverride.ofText (file ++ rest) = CameraOverride.ofText file := by
  have hcut : (file ++ rest).takeWhile (fun c => c ≠ fileMode.endOfFile)
      = file.takeWhile (fun c => c ≠ fileMode.endOfFile) := by
    rw [List.takeWhile_append, if_neg]
    intro hlen
    have hall := List.takeWhile_eq_self_iff.mp
      ((List.takeWhile_prefix _).eq_of_length hlen) _ h
    simp at hall
  rw [CameraOverride.ofText, CameraOverride.ofText, TextMode.read,
    TextMode.read, hcut]

/-- The file of a camera begins with the line with its name. -/
theorem exists_toText_eq (o : CameraOverride) (nm : String) :
    ∃ rest, o.toText nm
      = fileMode.write (CameraOverride.line "camera" nm) ++ rest := by
  obtain ⟨rest, heq, -⟩ := o.exists_inserted_eq nm
  exact ⟨fileMode.write rest, by
    rw [CameraOverride.toText, heq, TextMode.write, List.flatMap_append]
    rfl⟩

theorem endOfFile_mem_write_line {nm : String}
    (h : fileMode.endOfFile ∈ nm.toList) :
    fileMode.endOfFile ∈ fileMode.write (CameraOverride.line "camera" nm) := by
  refine List.mem_flatMap.mpr ⟨fileMode.endOfFile, ?_, ?_⟩
  · simp [CameraOverride.line, h]
  · rw [TextMode.writeChar, if_neg fileMode.endOfFile_ne_newline]
    exact List.mem_singleton_self _

/-- Whatever of a file arrives that is saved under such a name, it says
nothing. -/
theorem ofText_text_of_saysNothing {nm : String} (hnothing : SaysNothing nm)
    (h : fileMode.endOfFile ∈ nm.toList) (w : WriteOutcome) {old : Option Text}
    (hold : old.map CameraOverride.ofText = some {}) (o : CameraOverride) :
    (w.contents old (o.toText nm)).map CameraOverride.ofText = some {} := by
  obtain ⟨rest, heq⟩ := exists_toText_eq o nm
  have hmem := endOfFile_mem_write_line h
  have hwhole : ∀ tail, CameraOverride.ofText
      (fileMode.write (CameraOverride.line "camera" nm) ++ tail) = {} := by
    intro tail
    rw [ofText_append_of_mem hmem, ← List.take_length
      (l := fileMode.write (CameraOverride.line "camera" nm))]
    exact hnothing _
  cases w with
  | openFailed => exact hold
  | complete =>
    rw [WriteOutcome.contents, WriteOutcome.leaves_complete, Option.map_some,
      heq, hwhole]
  | stopped n noticed =>
    rw [WriteOutcome.contents, WriteOutcome.leaves_stopped, Option.map_some,
      heq, List.take_append]
    by_cases hn : n ≤ (fileMode.write (CameraOverride.line "camera" nm)).length
    · rw [Nat.sub_eq_zero_of_le hn, List.take_zero, List.append_nil,
        hnothing n]
    · rw [List.take_of_length_le (Nat.le_of_not_le hn), hwhole]

/-! ## One file for two names

Where two names have one file, a request for the first is seen by the second,
as long as the file says anything at all. The two cases are put together into
an equivalence about the names. -/

/-- A request that enables or disables a camera, and what becomes of its
write. -/
def enableRequest (w : WriteOutcome) (nm : String) (want : Bool) : Step :=
  requestWith { overrideOps := fun _ => { write := w } } "set-stream-enabled"
    [("name", .string nm), ("enabled", .boolean want)]

/-- The file that it leaves. -/
theorem next_enableRequest {sup : Supervisor} {nm : String} {i : ℕ}
    {s : CamSlot} (w : WriteOutcome) (want : Bool) (hne : nm ≠ "")
    (hs : sup.findByName nm = some (i, s)) :
    ∃ sup', next sup (enableRequest w nm want) = some sup' ∧
      sup'.disk = sup.disk.withOverride nm (w.contents (sup.disk.override nm)
        (((storedOverride (sup.disk.override nm)).overlay
          { enabled := some want }).toText nm)) := by
  refine ⟨_, rfl, ?_⟩
  show (handle { overrideOps := fun _ => { write := w } }
    { method := "set-stream-enabled"
      params := .object [("name", .string nm), ("enabled", .boolean want)] }
    sup).sup.disk = _
  rw [handle_setStreamEnabled rfl rfl hne rfl hs]
  rfl

/-- Independence means that a `set-stream-enabled` for the first camera leaves
a file that reads as the file of the second one does, if the file is one. -/
theorem OverrideIndependent.ofText_eq {sup : Supervisor} {nm nm' : String}
    {i : ℕ} {s : CamSlot} (hind : OverrideIndependent sup nm nm')
    (hne : nm ≠ "") (hs : sup.findByName nm = some (i, s))
    (heq : sup.disk.overrideKey nm' = sup.disk.overrideKey nm)
    (w : WriteOutcome) (want : Bool) :
    (w.contents (sup.disk.override nm)
        (((storedOverride (sup.disk.override nm)).overlay
          { enabled := some want }).toText nm)).map CameraOverride.ofText
      = (sup.disk.override nm').map CameraOverride.ofText := by
  obtain ⟨sup', hnext, hdisk⟩ := next_enableRequest w want hne hs
  have hst : Configures nm (enableRequest w nm want) :=
    .inr ⟨_, rfl, rfl, rfl⟩
  have hload := (hind [enableRequest w nm want] sup' (by simpa using hst)
    (Runs.run_cons_iff.mpr ⟨sup', hnext, rfl⟩)).1 {}
  rw [hdisk, Disk.override_withOverride_of_eq _ heq] at hload
  exact Except.ok.inj hload

/-- **One file for two names**: whatever is stored for the first is loaded for
the second, unless it can never be loaded. -/
theorem saysNothing_of_overrideIndependent {sup : Supervisor} {nm nm' : String}
    {i : ℕ} {s : CamSlot} (hind : OverrideIndependent sup nm nm')
    (hne : nm ≠ "") (hs : sup.findByName nm = some (i, s))
    (heq : sup.disk.overrideKey nm' = sup.disk.overrideKey nm) :
    fileMode.endOfFile ∈ nm.toList ∧ SaysNothing nm ∧
      (sup.disk.override nm').map CameraOverride.ofText = some {} := by
  have hstored : (sup.disk.override nm').map CameraOverride.ofText = some {} :=
    (hind.ofText_eq hne hs heq (.stopped 0 true) true).symm
  refine ⟨by_contra fun hname => ?_, fun n => ?_, hstored⟩
  · have hsaved := hind.ofText_eq hne hs heq .complete true
    have henabled := congrArg (fun o => o.bind CameraOverride.enabled)
      (hsaved.trans hstored)
    exact absurd ((enabled_ofText_toText rfl hname).symm.trans henabled)
      (by decide)
  · have hsaved := (hind.ofText_eq hne hs heq (.stopped (min n
      (fileMode.write (CameraOverride.line "camera" nm)).length) true)
      true).trans hstored
    obtain ⟨rest, htext⟩ := exists_toText_eq
      ((storedOverride (sup.disk.override nm)).overlay { enabled := some true })
      nm
    rw [WriteOutcome.contents, WriteOutcome.leaves_stopped,
      Option.map_some, htext,
      List.take_append_of_le_length (Nat.min_le_right _ _),
      ← List.take_eq_take_min] at hsaved
    exact Option.some.inj hsaved

/-- **Nothing is stored under a name that ends its file**: a file that says
nothing goes on saying nothing. The name is on the first line, and a reader
that stops in it sees no setting at all, before the save and behind it. -/
theorem overrideIndependent_of_saysNothing {sup : Supervisor} {nm nm' : String}
    (heq : sup.disk.overrideKey nm' = sup.disk.overrideKey nm)
    (hname : fileMode.endOfFile ∈ nm.toList) (hnothing : SaysNothing nm)
    (hstored : (sup.disk.override nm').map CameraOverride.ofText = some {}) :
    OverrideIndependent sup nm nm' := by
  refine overrideIndependent_of_kept
    (fun disk => (disk.override nm').map CameraOverride.ofText = some {})
    hstored (fun disk h ops => ?_) (fun t st out hkey ht hstep hst => ?_)
  · unfold loadOverride
    rw [h, hstored]
  · have heq' : t.disk.overrideKey nm' = t.disk.overrideKey nm := by
      unfold Disk.overrideKey at heq ⊢
      rwa [hkey]
    rcases override_step_of_eq hstep hst heq' with hsame | ⟨w, o, hsaved⟩
    · rw [hsame]
      exact ht
    · rw [hsaved]
      exact ofText_text_of_saysNothing hnothing hname w ht o

/-- **The override files of two cameras are independent exactly when their slugs
are different file names**, or when nothing that is stored for the first can be
loaded and nothing is stored for the second. -/
theorem overrideIndependent_iff {sup : Supervisor} {nm nm' : String} {i : ℕ}
    {s : CamSlot} (hne : nm ≠ "") (hs : sup.findByName nm = some (i, s)) :
    OverrideIndependent sup nm nm' ↔
      sup.disk.overrideKey nm' ≠ sup.disk.overrideKey nm ∨
        fileMode.endOfFile ∈ nm.toList ∧ SaysNothing nm ∧
          (sup.disk.override nm').map CameraOverride.ofText = some {} := by
  by_cases heq : sup.disk.overrideKey nm' = sup.disk.overrideKey nm
  · rw [or_iff_right (not_not.mpr heq)]
    exact ⟨fun h => saysNothing_of_overrideIndependent h hne hs heq,
      fun h => overrideIndependent_of_saysNothing heq h.1 h.2.1 h.2.2⟩
  · exact iff_of_true (overrideIndependent_of_ne heq) (.inl heq)

/-- Two names with different slugs. -/
theorem overrideIndependent_iff_oneCamera :
    ∃ sup, bootRun oneCamera [] = some sup ∧
      OverrideIndependent sup "Cam" "Other" :=
  ⟨_, rfl, (@overrideIndependent_iff _ "Cam" "Other" _ _ (by decide) rfl).mpr
    (.inl (by decide))⟩

/-- Two cameras whose names have no Latin letter and no digit. -/
def nonLatinCameras : Boot :=
  { oneCamera with
    cameras :=
      [({ friendlyName := "Камера" }, []), ({ friendlyName := "摄像头" }, [])] }

/-- They share the override file. -/
theorem nonLatin_names_share_override :
    ¬ ∀ (b : Boot) (steps : List Step) (sup : Supervisor) (nm nm' : String),
      Enumerated (b.cameras.map Prod.fst) → bootRun b steps = some sup →
      nm ∈ cameraNames sup.slots → nm' ∈ cameraNames sup.slots → nm ≠ nm' →
      OverrideIndependent sup nm nm' := by
  intro h
  have hcams : Enumerated (nonLatinCameras.cameras.map Prod.fst) :=
    ⟨"\"Камера\" (video)\n\"摄像头\" (video)".toList, by decide⟩
  have hind :=
    h nonLatinCameras [] _ "Камера" "摄像头" hcams rfl (by decide) (by decide)
    (by decide)
  exact absurd (saysNothing_of_overrideIndependent hind (by decide) rfl
    (by decide)).1 (by decide)

end WebcamStreamer
