import WebcamStreamer.RuntimeConfig

/-!
# Whether MediaMTX reads what was asked for

The path of the event hook lands in single-quoted scalars and the credentials in
plain ones, all as they are. The file means what was asked for exactly when the
path has no quote in it, the credentials are plain scalars that stand for
themselves and are no numbers, and no placeholder is in what was inserted. A
password such as `secret #1` is cut at the comment, and the viewer then has the
password `secret`.
-/

namespace WebcamStreamer

open Yaml

/-! ## What was asked for

The file is read with the whole of the template, not only at the four places
where something was pasted, since what is pasted can also change how the rest
is read. The settings that were asked for are those of the template with four
values replaced. -/

/-- Settings with another value for one key. -/
def withValue (path : Path) (v : Value) (settings : List (Path × Value)) :
    List (Path × Value) :=
  settings.map (fun s => if s.1 = path then (path, v) else s)

/-- The command with the path in double quotes. -/
def hookCommand (hookExe : Text) (event : String) : Text :=
  '"' :: (hookExe ++ '"' :: ' ' :: event.toList)

/-- **The file means what was asked for**: it has the settings of the template,
with the credentials for the viewer and the commands on the path for the
hooks. -/
def MeansAsked (isString : Text → Bool) (hookExe : Text) (c : Credentials)
    (contents : Text) : Prop :=
  load isString contents = (load isString mediamtxYml).map fun settings =>
    withValue (hookKey "runOnUnread") (.str (hookCommand hookExe "unread"))
      (withValue (hookKey "runOnRead") (.str (hookCommand hookExe "read"))
        (withValue (viewerKey "pass") (.str c.2.toList)
          (withValue (viewerKey "user") (.str c.1.toList) settings)))

instance (isString : Text → Bool) (hookExe : Text) (c : Credentials)
    (contents : Text) :
    Decidable (MeansAsked isString hookExe c contents) :=
  inferInstanceAs (Decidable (_ = _))

theorem withValue_append (path : Path) (v : Value)
    (l l' : List (Path × Value)) :
    withValue path v (l ++ l') = withValue path v l ++ withValue path v l' :=
  List.map_append

/-- A key that is not there is not set. -/
theorem withValue_zip_of_notMem {path : Path} {ps : List Path}
    (h : path ∉ ps) (v : Value)
    (vs : List Value) : withValue path v (ps.zip vs) = ps.zip vs := by
  have hself : ∀ s ∈ ps.zip vs, (if s.1 = path then (path, v) else s) = s := by
    intro s hs
    refine if_neg ?_
    rintro rfl
    exact h (List.of_mem_zip hs).1
  exact (List.map_congr_left hself).trans (List.map_id' _)

/-- Setting the four keys leaves the others as they are. -/
theorem withValue_mediamtxSettings (isString : Text → Bool)
    (v₁ v₂ v₃ v₄ w₁ w₂ w₃ w₄ : Value) :
    withValue (hookKey "runOnUnread") v₄ (withValue (hookKey "runOnRead") v₃
        (withValue (viewerKey "pass") v₂ (withValue (viewerKey "user") v₁
          (mediamtxSettings isString w₁ w₂ w₃ w₄))))
      = mediamtxSettings isString v₁ v₂ v₃ v₄ := by
  have hserver : ∀ p ∈ [viewerKey "user", viewerKey "pass", hookKey "runOnRead",
      hookKey "runOnUnread"], p ∉ serverPaths := by decide +kernel
  have hmiddle : ∀ p ∈ [viewerKey "user", viewerKey "pass", hookKey "runOnRead",
      hookKey "runOnUnread"], p ∉ middlePaths := by decide +kernel
  simp only [List.forall_mem_cons] at hserver hmiddle
  obtain ⟨hs₁, hs₂, hs₃, hs₄, -⟩ := hserver
  obtain ⟨hm₁, hm₂, hm₃, hm₄, -⟩ := hmiddle
  simp only [mediamtxSettings, withValue_append, withValue_zip_of_notMem hs₁,
    withValue_zip_of_notMem hs₂, withValue_zip_of_notMem hs₃,
    withValue_zip_of_notMem hs₄,
    withValue_zip_of_notMem hm₁, withValue_zip_of_notMem hm₂,
    withValue_zip_of_notMem hm₃,
    withValue_zip_of_notMem hm₄]
  rfl

/-! ## The four texts

Reading the template once, with placeholders, gives the paths of the four
values and shows that the rest is ordinary. From there the question is only
what each of the four texts behind its colon is read as. -/

/-- The template puts no character on a line that may not stand there. -/
theorem printable_mediamtxLines {user pass hook : Text} (huser : Printable user)
    (hpass : Printable pass) (hhook : Printable hook) :
    ∀ l ∈ mediamtxLines user pass hook, Printable l := by
  -- the fixed text is checked once, and the rest is put together from parts of
  -- it
  have hlines : ∀ ls ∈ [serverLines, permissionLines, pathLines],
      ∀ l ∈ ls.map String.toList, Printable l := by decide +kernel
  have hparts : ∀ s ∈ fixedParts, Printable s.toList := by decide +kernel
  have hmark : ∀ {c : Char} {t : Text}, c ∈ [' ', '"'] → Printable t →
      Printable (c :: t) :=
    fun hc ht => printable_cons.mpr
      ⟨List.all_eq_true.mp (by decide : [' ', '"'].all isPrintable = true) _ hc,
        ht⟩
  have hbehind : ∀ {s : String} {t : Text}, s ∈ fixedParts → Printable t →
      Printable (s.toList ++ t) :=
    fun hs ht => printable_append.mpr ⟨hparts _ hs, ht⟩
  have hbefore : ∀ {c : Char} {s : String} {t : Text}, c ∈ [' ', '"'] →
      s ∈ fixedParts →
      Printable t → Printable (t ++ c :: s.toList) :=
    fun hc hs ht => printable_append.mpr ⟨ht, hmark hc (hparts _ hs)⟩
  have hviewer : ∀ l ∈ viewerLines user pass, Printable l := by
    refine List.forall_mem_cons.mpr ⟨?_,
      List.forall_mem_cons.mpr ⟨?_, List.forall_mem_singleton.mpr ?_⟩⟩
    · refine hbehind (by simp [fixedParts])
        (hmark (by simp) (printable_append.mpr ⟨huser, ?_⟩))
      exact hmark (by simp) (hbehind (by simp [fixedParts])
        (hmark (by simp) (hbefore (by simp) (by simp [fixedParts]) hpass)))
    · exact hbehind (by simp [fixedParts]) (hmark (by simp) huser)
    · exact hbehind (by simp [fixedParts]) (hmark (by simp) hpass)
  have hcomment : Printable (hookComment hook) := hbehind (by simp [fixedParts])
    (hmark (by simp) (hbefore (by simp) (by simp [fixedParts]) hhook))
  have hhooks : ∀ l ∈ hookLines hook, Printable l := by
    refine List.forall_mem_cons.mpr ⟨?_, List.forall_mem_singleton.mpr ?_⟩
    · exact hbehind (by simp [fixedParts])
        (hmark (by simp) (hbefore (by simp) (by simp [fixedParts]) hhook))
    · exact hbehind (by simp [fixedParts])
        (hmark (by simp) (hbefore (by simp) (by simp [fixedParts]) hhook))
  have happend :=
    fun {l l' : List Text} (h : ∀ t ∈ l, Printable t) (h' : ∀ t ∈ l',
      Printable t) =>
    List.forall_mem_append.mpr ⟨h, h'⟩
  exact happend (happend
    (happend (happend (hlines _ (by simp)) hviewer) (hlines _ (by simp)))
    (List.forall_mem_cons.mpr ⟨hcomment, hlines _ (by simp)⟩)) hhooks

/-- The template is read, with the placeholders for the four values. -/
theorem load_mediamtxYml (isString : Text → Bool) :
    ∃ v₁ v₂ v₃ v₄, load isString mediamtxYml
      = some (mediamtxSettings isString v₁ v₂ v₃ v₄) := by
  have hprintable : ∀ ph ∈ placeholders, Printable ph := by decide
  have hreads : (readNode (' ' :: "__VIEWER_USER__".toList)).isSome = true
      ∧ (readNode (' ' :: "__VIEWER_PASS__".toList)).isSome = true
      ∧ (readNode (hookText 3 "__EVENT_HOOK__".toList "read")).isSome = true
      ∧ (readNode (hookText 1 "__EVENT_HOOK__".toList "unread")).isSome
      = true := by decide +kernel
  simp only [Option.isSome_iff_exists] at hreads
  obtain ⟨⟨n₁, h₁⟩, ⟨n₂, h₂⟩, ⟨n₃, h₃⟩, ⟨n₄, h₄⟩⟩ := hreads
  refine ⟨n₁.value isString, n₂.value isString, n₃.value isString,
    n₄.value isString, ?_⟩
  rw [mediamtxYml, load_mediamtxLines isString (printable_mediamtxLines
    (hprintable _ (by decide)) (hprintable _ (by decide))
      (hprintable _ (by decide))),
    h₁, h₂, h₃, h₄]
  rfl

theorem mediamtxSettings_inj {isString : Text → Bool}
    {v₁ v₂ v₃ v₄ w₁ w₂ w₃ w₄ : Value} :
    mediamtxSettings isString v₁ v₂ v₃ v₄
      = mediamtxSettings isString w₁ w₂ w₃ w₄
      ↔ v₁ = w₁ ∧ v₂ = w₂ ∧ v₃ = w₃ ∧ v₄ = w₄ := by
  have hpair : ∀ {p q : Path} {v v' w w' : Value},
      [(p, v), (q, v')] = [(p, w), (q, w')] →
      v = w ∧ v' = w' := by simp
  constructor
  · intro h
    obtain ⟨hfront, hhooks⟩ := List.append_inj' h rfl
    obtain ⟨hviewer, -⟩ := List.append_inj' hfront rfl
    obtain ⟨huser, hpass⟩ := hpair (List.append_cancel_left hviewer)
    obtain ⟨hread, hunread⟩ := hpair hhooks
    exact ⟨huser, hpass, hread, hunread⟩
  · rintro ⟨rfl, rfl, rfl, rfl⟩
    rfl

/-- **What has to be read behind the four colons.** Everything else in the
template is fixed text, which the reader of the format takes as it stands, so
that the meaning of the file comes down to four scalars. -/
theorem meansAsked_iff {isString : Text → Bool} {hookExe user pass hook : Text}
    {c : Credentials}
    (h : ∀ l ∈ mediamtxLines user pass hook, Printable l) :
    MeansAsked isString hookExe c (unlines (mediamtxLines user pass hook))
      ↔ Reads isString (' ' :: user) c.1.toList ∧
      Reads isString (' ' :: pass) c.2.toList
        ∧ Reads isString (hookText 3 hook "read") (hookCommand hookExe "read")
        ∧ Reads isString (hookText 1 hook "unread")
          (hookCommand hookExe "unread") := by
  obtain ⟨v₁, v₂, v₃, v₄, htemplate⟩ := load_mediamtxYml isString
  rw [MeansAsked, htemplate, Option.map_some, withValue_mediamtxSettings,
    load_mediamtxLines _ h]
  constructor
  · intro hload
    obtain ⟨n₁, h₁, hload⟩ := Option.bind_eq_some_iff.mp hload
    obtain ⟨n₂, h₂, hload⟩ := Option.bind_eq_some_iff.mp hload
    obtain ⟨n₃, h₃, hload⟩ := Option.bind_eq_some_iff.mp hload
    obtain ⟨n₄, h₄, hload⟩ := Option.map_eq_some_iff.mp hload
    obtain ⟨hv₁, hv₂, hv₃, hv₄⟩ := mediamtxSettings_inj.mp hload
    exact ⟨⟨n₁, h₁, hv₁⟩, ⟨n₂, h₂, hv₂⟩, ⟨n₃, h₃, hv₃⟩, ⟨n₄, h₄, hv₄⟩⟩
  · rintro ⟨⟨n₁, h₁, hv₁⟩, ⟨n₂, h₂, hv₂⟩, ⟨n₃, h₃, hv₃⟩, ⟨n₄, h₄, hv₄⟩⟩
    rw [h₁, h₂, h₃, h₄, Option.bind_some, Option.bind_some, Option.bind_some,
      Option.map_some,
      hv₁, hv₂, hv₃, hv₄]

/-! ## The user and the password

The two credentials are substituted after each other, so that a user may
contain the placeholder of the password and be changed by the second
substitution. Quotes and blanks at the front of a scalar are what makes this
delicate, since they decide how the scalar is read at all. -/

/-- A blank, or a quote. -/
def isQuoteOrBlank (c : Char) : Bool := isBlank c || c = '\''

/-- Blanks in front take nothing from a leading run of quotes and blanks. -/
theorem length_takeWhile_dropWhile_le (t : Text) :
    ((t.dropWhile isBlank).takeWhile isQuoteOrBlank).length
      ≤ (t.takeWhile isQuoteOrBlank).length := by
  have hblanks : ∀ c ∈ t.takeWhile isBlank, isQuoteOrBlank c = true :=
    fun c hc => by
    simp [isQuoteOrBlank, List.mem_takeWhile_imp hc]
  conv_rhs => rw [← List.takeWhile_append_dropWhile (p := isBlank) (l := t),
    List.takeWhile_append_of_pos hblanks, List.length_append]
  omega

/-- Escaping makes a leading run of quotes and blanks no shorter. -/
theorem length_takeWhile_escape_le (s rest : Text) :
    (s.takeWhile isQuoteOrBlank).length
      ≤ ((escape s ++ rest).takeWhile isQuoteOrBlank).length := by
  induction s using quote_induction with
  | nil => simp
  | quote s ih =>
    have hquote : isQuoteOrBlank '\'' = true := by decide
    simp only [escape_cons_quote, List.cons_append,
      List.takeWhile_cons_of_pos hquote,
      List.length_cons]
    omega
  | other c s hc ih =>
    rw [escape_cons_of_ne hc, List.cons_append]
    cases hrun : isQuoteOrBlank c with
    | true =>
      rw [List.takeWhile_cons_of_pos hrun, List.takeWhile_cons_of_pos hrun,
        List.length_cons,
        List.length_cons]
      omega
    | false => simp [List.takeWhile_cons_of_neg, hrun]

/-- A plain scalar for a placeholder leaves a plain scalar one that nothing is
cut from. -/
theorem readPlain_replaceAll {placeholder pass user : Text}
    (hp : placeholder ≠ [])
    (hpass : PlainScalar pass) (huser : PlainScalar user) :
    let t := Replace.replaceAll placeholder pass user
    (cutComment false (t.dropWhile isBlank)).rdropWhile isBlank = t := by
  intro t
  obtain ⟨c, cs, rfl, hc, hcmark⟩ := hpass.exists_cons
  obtain ⟨d, ds, rfl, hd, -⟩ := huser.exists_cons
  have hne : c :: cs ≠ [] := List.cons_ne_nil c cs
  have hcomment : c ≠ '#' := fun h => hcmark (h ▸ by decide)
  have hchain : t.IsChain (fun a b => isBlank a = true → b ≠ '#') := by
    refine Replace.isChain_replaceAll hp hne hpass.noComment ?_ ?_
      huser.noComment
    · intro a b hb _
      exact (Option.some.inj hb) ▸ hcomment
    · intro a ha b hblank
      exact absurd hblank (by simp [hpass.last a ha])
  have hfirst : ∀ a ∈ t.head?, isBlank a = false := by
    intro a ha
    rcases Replace.head?_replaceAll hp hne (d :: ds) with h | h
    · exact (Option.some.inj (h.symm.trans ha)) ▸ hd
    · exact (Option.some.inj (h.symm.trans ha)) ▸ hc
  have hlast : ∀ a ∈ t.getLast?, isBlank a = false := by
    intro a ha
    rcases Replace.getLast?_replaceAll hp hne (d :: ds) with h | h
    · exact huser.last a (h.symm.trans ha)
    · exact hpass.last a (h.symm.trans ha)
  have hdrop : t.dropWhile isBlank = t := by
    cases ht : t with
    | nil => rfl
    | cons a as =>
      exact List.dropWhile_cons_of_neg (by simp [hfirst a (by rw [ht]; rfl)])
  rw [hdrop, @cutComment_eq_self false t nofun hchain,
    List.rdropWhile_eq_self_iff]
  intro hnil
  simp [hlast _ (List.getLast?_eq_some_getLast hnil)]

/-- **Where a user is read back**: what is put into the user for the placeholder
of the password is never taken out again. -/
theorem reads_replaceAll_iff {isString : Text → Bool}
    {placeholder pass user : Text}
    (hp : placeholder ≠ [])
    (hhead : ∀ c ∈ placeholder.head?, isQuoteOrBlank c = false)
    (hpass : PlainScalar pass) :
    Reads isString (' ' :: Replace.replaceAll placeholder pass user) user
      ↔ Replace.replaceAll placeholder pass user = user ∧ PlainScalar user
        ∧ isString user = true := by
  have hdrop : ∀ t : Text, (' ' :: t).dropWhile isBlank = t.dropWhile isBlank :=
    fun _ => rfl
  constructor
  · rintro ⟨n, hread, hvalue⟩
    rcases readNode_eq_str hread hvalue with ⟨rest, hquoted⟩ | ⟨hplain, hstr⟩
    · -- the opening quote makes the leading run longer, and the replacement
      -- does not
      exfalso
      obtain ⟨c, cs, rfl, hc, hmark⟩ := hpass.exists_cons
      have hrun :=
        @Replace.takeWhile_replaceAll _ _ placeholder
          (c :: cs) isQuoteOrBlank hp hhead
        (List.cons_ne_nil c cs) (by
          rintro _ ⟨⟩
          have hquote : c ≠ '\'' := fun h => hmark (h ▸ by decide)
          simp [isQuoteOrBlank, hc, hquote]) user
      have hblanks := length_takeWhile_dropWhile_le
        (Replace.replaceAll placeholder (c :: cs) user)
      have hescape := length_takeWhile_escape_le user ('\'' :: rest)
      rw [← hdrop, hquoted, hrun, List.takeWhile_cons_of_pos (by decide),
        List.length_cons]
        at hblanks
      omega
    · obtain ⟨huser, heq⟩ := plainScalar_of_readPlain hplain
      rw [hdrop, readPlain_replaceAll hp hpass huser] at heq
      exact ⟨heq.symm, huser, hstr⟩
  · rintro ⟨heq, huser, hstr⟩
    rw [heq]
    exact reads_cons_blank_iff.mpr ⟨huser, hstr⟩

/-! ## The hooks

The path of the hook stands twice in the file, in two commands that differ in
the event at their end. A path with a single quote in it ends the scalar
early; reading one hook alone such a path could still come out right by
accident, but not both at once. -/

theorem dropWhile_hookText (spaces : ℕ) (hook : Text) (event : String) :
    (hookText spaces hook event).dropWhile isBlank
      = '\'' :: '"' :: (hook ++ '"' :: ' ' :: (event.toList ++ ['\''])) :=
  dropWhile_spaces rfl spaces (by decide) _

/-- The command in a single-quoted scalar. -/
theorem escape_hookCommand (hookExe : Text) {event : String}
    (hevent : escape event.toList = event.toList) :
    escape (hookCommand hookExe event) = '"'
      :: (escape hookExe ++ '"' :: ' ' :: event.toList) := by
  have hmark : ∀ (c : Char) (t : Text), c ≠ '\'' →
      escape (c :: t) = c :: escape t :=
    fun c t hc => escape_cons_of_ne hc t
  rw [hookCommand, hmark _ _ (by decide), escape_append, hmark _ _ (by decide),
    hmark _ _ (by decide), hevent]

/-- What a hook reads as the command was pasted up to a quote. -/
theorem exists_rest_of_reads {isString : Text → Bool} {spaces : ℕ}
    {hookExe hook : Text}
    {event : String} (hevent : escape event.toList = event.toList)
    (h : Reads isString (hookText spaces hook event)
      (hookCommand hookExe event)) :
    ∃ rest, hook ++ '"' :: ' ' :: (event.toList ++ ['\''])
      = escape hookExe ++ '"' :: ' ' :: (event.toList ++ '\'' :: rest) := by
  obtain ⟨n, hread, hvalue⟩ := h
  rcases readNode_eq_str hread hvalue with ⟨rest, hquoted⟩ | ⟨hplain, -⟩
  · rw [dropWhile_hookText, escape_hookCommand hookExe hevent] at hquoted
    refine ⟨rest, ?_⟩
    simpa using hquoted
  · -- a plain scalar does not begin with a double quote
    obtain ⟨c, cs, hcommand, -, hmark⟩ :=
      (plainScalar_of_readPlain hplain).1.exists_cons
    obtain ⟨rfl, -⟩ := List.cons.inj hcommand
    exact absurd (by decide) hmark

/-- Two events that differ in their first character leave no room for anything
between the text and the quote. -/
theorem eq_of_events {hook t rest rest' : Text}
    (hread : hook ++ '"' :: ' ' :: ("read".toList ++ ['\''])
      = t ++ '"' :: ' ' :: ("read".toList ++ '\'' :: rest))
    (hunread : hook ++ '"' :: ' ' :: ("unread".toList ++ ['\''])
      = t ++ '"' :: ' ' :: ("unread".toList ++ '\'' :: rest')) : hook = t := by
  have hlen := congrArg List.length hread
  simp only [List.length_append, List.length_cons, List.length_nil] at hlen
  obtain ⟨z, rfl⟩ : t <+: hook :=
    List.prefix_of_prefix_length_le ⟨_, hread.symm⟩ ⟨_, rfl⟩ (by omega)
  rw [List.append_assoc] at hread hunread
  have hread := List.append_cancel_left hread
  have hunread := List.append_cancel_left hunread
  match z with
  | [] => rw [List.append_nil]
  | [a] => simp at hread
  | [a, b] => simp at hread
  | a :: b :: d :: z =>
    have hr : d = 'r' := by
      simp at hread
      exact hread.2.2.1
    have hu : d = 'u' := by
      simp at hunread
      exact hunread.2.2.1
    exact absurd (hr.symm.trans hu) (by decide)

/-- **The hooks are read back** exactly when the text is the path with its
quotes doubled. One hook alone could read a path that ends the scalar early; the
two events differ. -/
theorem reads_hooks_iff {isString : Text → Bool} {hookExe hook : Text} :
    (Reads isString (hookText 3 hook "read") (hookCommand hookExe "read")
      ∧ Reads isString (hookText 1 hook "unread")
        (hookCommand hookExe "unread"))
      ↔ hook = escape hookExe := by
  have hreadEvent : escape "read".toList = "read".toList := by decide
  have hunreadEvent : escape "unread".toList = "unread".toList := by decide
  constructor
  · rintro ⟨hread, hunread⟩
    obtain ⟨rest, hrest⟩ := exists_rest_of_reads hreadEvent hread
    obtain ⟨rest', hrest'⟩ := exists_rest_of_reads hunreadEvent hunread
    exact eq_of_events hrest hrest'
  · rintro rfl
    have hreads : ∀ spaces event, escape event.toList = event.toList →
        Reads isString (hookText spaces (escape hookExe) event)
          (hookCommand hookExe event) := by
      intro spaces event hevent
      refine ⟨.quoted (hookCommand hookExe event), readNode_quoted _ ?_, rfl⟩
      rw [dropWhile_hookText, escape_hookCommand hookExe hevent]
      simp
    exact ⟨hreads 3 "read" hreadEvent, hreads 1 "unread" hunreadEvent⟩

/-! ## When the file means what was asked for

The conditions are collected into a structure and shown to be exactly what is
needed. They are stated about the credentials, the path and the schema of
MediaMTX, with no reference to the file that is generated. -/

/-- **Safe to paste**: the credentials are plain scalars that stand for
themselves and that the schema takes for strings, the placeholder of the
password is not in the user, nothing in the three texts may not stand on a line,
and the path comes out with its quotes doubled. -/
structure SafeToPaste (isString : Text → Bool) (codePage : CodePage)
    (hookExe : Text)
    (c : Credentials) : Prop where
  user : PlainScalar c.1.toList ∧ isString c.1.toList = true
  pass : PlainScalar c.2.toList ∧ isString c.2.toList = true
  kept : ViewerEntryKept c
  printable : Printable c.1.toList ∧ Printable c.2.toList ∧ Printable hookExe
  hook : ∃ hook, codePage.narrow hookExe = some hook ∧
    substitutedHook c hook = escape hookExe

theorem mem_mediamtxSettings (isString : Text → Bool) (v₁ v₂ v₃ v₄ : Value) :
    (viewerKey "user", v₁) ∈ mediamtxSettings isString v₁ v₂ v₃ v₄
      ∧ (viewerKey "pass", v₂) ∈ mediamtxSettings isString v₁ v₂ v₃ v₄
      ∧ (hookKey "runOnRead", v₃) ∈ mediamtxSettings isString v₁ v₂ v₃ v₄ := by
  refine ⟨?_, ?_, ?_⟩
  · exact List.mem_append_left _
      (List.mem_append_left _ (List.mem_append_right _ (.head _)))
  · exact List.mem_append_left _
      (List.mem_append_left _ (List.mem_append_right _ (.tail _ (.head _))))
  · exact List.mem_append_right _ (.head _)

/-- What is read back may stand on a line. -/
theorem MeansAsked.printable {isString : Text → Bool} {hookExe contents : Text}
    {c : Credentials}
    (h : MeansAsked isString hookExe c contents) :
    Printable c.1.toList ∧ Printable c.2.toList ∧ Printable hookExe := by
  obtain ⟨v₁, v₂, v₃, v₄, htemplate⟩ := load_mediamtxYml isString
  rw [MeansAsked, htemplate, Option.map_some, withValue_mediamtxSettings] at h
  obtain ⟨huser, hpass, hread⟩ :=
    mem_mediamtxSettings isString (.str c.1.toList)
    (.str c.2.toList) (.str (hookCommand hookExe "read"))
      (.str (hookCommand hookExe "unread"))
  refine ⟨printable_of_mem_load h huser, printable_of_mem_load h hpass, ?_⟩
  exact (printable_append.mp
    (printable_cons.mp (printable_of_mem_load h hread)).2).1

/-- The text for the path is on a line of the file. -/
theorem subset_unlines_mediamtxLines (user pass hook : Text) :
    hook ⊆ unlines (mediamtxLines user pass hook) := by
  intro ch hch
  refine List.mem_flatMap.mpr ⟨hookComment hook, ?_, ?_⟩
  · exact List.mem_append_left _ (List.mem_append_right _ (.head _))
  · exact List.mem_append_left _
      (List.mem_append_right _ (.tail _ (List.mem_append_left _ hch)))

/-- Whatever is pasted comes from the credentials and the path. -/
theorem subset_substitutedHook (c : Credentials) (hook : Text) :
    substitutedHook c hook ⊆ hook ++ c.1.toList ++ c.2.toList := by
  have hu : "__VIEWER_USER__".toList ≠ [] := by decide
  have hp : "__VIEWER_PASS__".toList ≠ [] := by decide
  intro ch hch
  rcases List.mem_append.mp (Replace.subset_replaceAll hp _ hch) with h | h
  · exact List.mem_append_left _ (Replace.subset_replaceAll hu _ h)
  · exact List.mem_append_right _ h

/-- The credentials of the entry are those of the settings, pasted. -/
theorem substitutedEntry_fst (c : Credentials) :
    (substitutedEntry c).1.toList
      = Replace.replaceAll "__VIEWER_PASS__".toList c.2.toList c.1.toList := by
  simp [substitutedEntry]

theorem printable_substitutedEntry {c : Credentials}
    (huser : Printable c.1.toList)
    (hpass : Printable c.2.toList) :
    Printable (substitutedEntry c).1.toList := by
  have hp : "__VIEWER_PASS__".toList ≠ [] := by decide
  intro ch hch
  rw [substitutedEntry_fst] at hch
  rcases List.mem_append.mp (Replace.subset_replaceAll hp _ hch) with h | h
  · exact huser ch h
  · exact hpass ch h

/-- A file that is read has no line break in the text for the path. -/
theorem printable_substitutedHook {isString : Text → Bool} {codePage : CodePage}
    {hookExe hook : Text} {c : Credentials}
    (hnarrow : codePage.narrow hookExe = some hook)
    (h : MeansAsked isString hookExe c
      (unlines (mediamtxLines (substitutedEntry c).1.toList
      (substitutedEntry c).2.toList (substitutedHook c hook)))) :
    Printable (substitutedHook c hook) := by
  obtain ⟨huser, hpass, hpath⟩ := h.printable
  have hbreak : ∀ ch ∈ hook, isBreak ch = false :=
    codePage.noBreak hnarrow (fun ch hch =>
      isBreak_of_isPrintable (hpath ch hch))
  obtain ⟨v₁, v₂, v₃, v₄, htemplate⟩ := load_mediamtxYml isString
  rw [MeansAsked, htemplate, Option.map_some] at h
  intro ch hch
  refine (isPrintable_or_isBreak_of_mem h
    (subset_unlines_mediamtxLines _ _ _ hch)).resolve_right ?_
  rw [Bool.not_eq_true]
  rcases List.mem_append.mp (subset_substitutedHook c hook hch) with hch | hch
  · rcases List.mem_append.mp hch with hch | hch
    · exact hbreak ch hch
    · exact isBreak_of_isPrintable (huser ch hch)
  · exact isBreak_of_isPrintable (hpass ch hch)

/-- **The runtime file means what was asked for exactly when the credentials
and the path are safe to paste.** The condition is on the texts that are
pasted and on the schema of whoever reads the file; it does not mention the
file that comes out. -/
theorem meansAsked_runtimeContents_iff (isString : Text → Bool)
    (codePage : CodePage)
    (hookExe : Text) (c : Credentials) :
    (∃ contents, runtimeContents codePage hookExe c = some contents
        ∧ MeansAsked isString hookExe c contents)
      ↔ SafeToPaste isString codePage hookExe c := by
  have hp : "__VIEWER_PASS__".toList ≠ [] := by decide
  have hhead : ∀ ch ∈ "__VIEWER_PASS__".toList.head?,
      isQuoteOrBlank ch = false := by
    intro ch hch
    obtain rfl : '_' = ch := Option.some.inj hch
    decide
  simp only [runtimeContents_eq, Option.map_eq_some_iff]
  constructor
  · rintro ⟨contents, ⟨hook, hnarrow, rfl⟩, hasked⟩
    obtain ⟨huser, hpass, hpath⟩ := hasked.printable
    have hhook := printable_substitutedHook hnarrow hasked
    have hlines :=
      printable_mediamtxLines
        (printable_substitutedEntry huser hpass) hpass hhook
    obtain ⟨hreadsUser, hreadsPass, hreadsHooks⟩ :=
      (meansAsked_iff hlines).mp hasked
    have hpassPlain := reads_cons_blank_iff.mp hreadsPass
    -- the placeholder of the password is replaced in the user as well, which
    -- the reader does not undo
    rw [substitutedEntry_fst,
      reads_replaceAll_iff hp hhead hpassPlain.1] at hreadsUser
    exact
      { user := hreadsUser.2
        pass := hpassPlain
        kept := by
          rw [← substitutedEntry_eq_self_iff, Prod.ext_iff, ← String.toList_inj,
            substitutedEntry_fst]
          exact ⟨hreadsUser.1, rfl⟩
        printable := ⟨huser, hpass, hpath⟩
        hook := ⟨hook, hnarrow, reads_hooks_iff.mp hreadsHooks⟩ }
  · rintro ⟨huser, hpass, hkept, ⟨hpu, hpp, hpath⟩, hook, hnarrow, hescape⟩
    refine ⟨_, ⟨hook, hnarrow, rfl⟩, ?_⟩
    -- what is pasted is printable, so that the lines are those of the template
    have hhook : Printable (substitutedHook c hook) := by
      rw [hescape]
      exact fun ch hch => hpath ch (mem_escape.mp hch)
    rw [substitutedEntry_eq_self_iff.mpr hkept,
      meansAsked_iff (printable_mediamtxLines hpu hpp hhook)]
    exact ⟨reads_cons_blank_iff.mpr huser, reads_cons_blank_iff.mpr hpass,
      reads_hooks_iff.mpr hescape⟩

/-- A hook at a path without quotes and placeholders. -/
def plainHookExe : Text := "C:\\WebcamStreamer\\mtx_event_hook.exe".toList

/-- A password with a comment mark is cut there, and the viewer has a weaker
one. -/
theorem comment_mark_cuts_password :
    ∃ contents, runtimeContents .utf8 plainHookExe ("viewer",
      "secret #1") = some contents ∧
      MeansAsked coreIsString plainHookExe ("viewer", "secret") contents ∧
      ¬ MeansAsked coreIsString plainHookExe ("viewer",
        "secret #1") contents := by
  have hlines :=
    @printable_mediamtxLines "viewer".toList "secret #1".toList plainHookExe
    (by decide +kernel) (by decide +kernel) (by decide +kernel)
  have hcontents : runtimeContents .utf8 plainHookExe ("viewer", "secret #1")
      = some (unlines
        (mediamtxLines "viewer".toList "secret #1".toList plainHookExe)) := by
    rw [runtimeContents_eq,
      (by decide +kernel : substitutedEntry ("viewer", "secret #1") = ("viewer",
        "secret #1"))]
    exact congrArg (fun hook => some (unlines (mediamtxLines _ _ hook)))
      (by decide +kernel : substitutedHook ("viewer",
        "secret #1") plainHookExe = plainHookExe)
  have huser : Reads coreIsString (' ' :: "viewer".toList) "viewer".toList :=
    ⟨.plain "viewer".toList, by decide +kernel, by decide +kernel⟩
  have hpass : Reads coreIsString (' ' :: "secret #1".toList) "secret".toList :=
    ⟨.plain "secret".toList, by decide +kernel, by decide +kernel⟩
  refine ⟨_, hcontents, (meansAsked_iff hlines).mpr
    ⟨huser, hpass, reads_hooks_iff.mpr (by decide +kernel)⟩, ?_⟩
  intro h
  obtain ⟨-, hasked, -⟩ := (meansAsked_iff hlines).mp h
  have hcomment := (reads_cons_blank_iff.mp hasked).1.noComment
  revert hcomment
  decide +kernel

/-! ## Ordinary paths and generated credentials

Most installations never meet the conditions as a question. A path without a
quote and a placeholder is safe, and the credentials that the program
generates itself are drawn from an alphabet without any character that has a
meaning in the file. -/

theorem escape_eq_self_iff {s : Text} : escape s = s ↔ '\'' ∉ s := by
  induction s using quote_induction with
  | nil => simp
  | quote s ih =>
    have hlen := length_le_length_escape s
    constructor
    · intro h
      have hlong := congrArg List.length h
      simp only [escape_cons_quote, List.length_cons] at hlong
      omega
    · intro h
      exact absurd List.mem_cons_self h
  | other c s hc ih => simp [escape_cons_of_ne hc, ih, Ne.symm hc]

/-- **A path without a placeholder** that the code page leaves as it is comes
out right exactly when it has no single quote. -/
theorem substitutedHook_eq_escape_iff {hookExe : Text} {c : Credentials}
    (huser : ¬ "__VIEWER_USER__".toList <:+: hookExe)
    (hpass : ¬ "__VIEWER_PASS__".toList <:+: hookExe) :
    substitutedHook c hookExe = escape hookExe ↔ '\'' ∉ hookExe := by
  rw [substitutedHook, Replace.replaceAll_of_not_infix huser,
    Replace.replaceAll_of_not_infix hpass, eq_comm, escape_eq_self_iff]

/-- `kAlphabet`. -/
def kAlphabet : Text :=
  "abcdefghijklmnopqrstuvwxyzABCDEFGHIJKLMNOPQRSTUVWXYZ0123456789-._~".toList

/-- What `GenerateRandomCredential` can return. -/
structure IsGenerated (s : Text) : Prop where
  length : s.length = 8
  alphabet : s ⊆ kAlphabet

/-- Of what is generated, no character has a meaning in a plain scalar. -/
theorem IsGenerated.plainScalar {s : Text} (h : IsGenerated s) :
    PlainScalar s := by
  have hall : kAlphabet.all (fun c => !isBlank c && !indicators.contains c
      && c ≠ ':') = true := by
    decide +kernel
  refine plainScalar_of_forall (by simp [h.length]) (fun c hc => ?_)
  simpa [and_assoc] using List.all_eq_true.mp hall c (h.alphabet hc)

theorem IsGenerated.printable {s : Text} (h : IsGenerated s) : Printable s := by
  have hall : kAlphabet.all isPrintable = true := by decide +kernel
  exact fun c hc => List.all_eq_true.mp hall c (h.alphabet hc)

/-- **What was generated goes wrong only as a number or a word of the
schema.** Generated credentials have letters and digits only, so that of all
that can go wrong with pasted text only the type of the scalar is left. -/
theorem safeToPaste_generated_iff {isString : Text → Bool} {codePage : CodePage}
    {hookExe : Text}
    {c : Credentials} (huser : IsGenerated c.1.toList)
    (hpass : IsGenerated c.2.toList)
    (hpath : Printable hookExe)
    (hhook : ∃ hook, codePage.narrow hookExe = some hook
      ∧ substitutedHook c hook = escape hookExe) :
    SafeToPaste isString codePage hookExe c
      ↔ isString c.1.toList = true ∧ isString c.2.toList = true := by
  constructor
  · intro h
    exact ⟨h.user.2, h.pass.2⟩
  · rintro ⟨hu, hp⟩
    exact
      { user := ⟨huser.plainScalar, hu⟩
        pass := ⟨hpass.plainScalar, hp⟩
        kept := fun hin =>
          absurd (hin.length_le.trans_eq huser.length) (by decide +kernel)
        printable := ⟨huser.printable, hpass.printable, hpath⟩
        hook := hhook }

example :
    IsGenerated "1234e567".toList ∧ coreIsString "1234e567".toList = false :=
  ⟨⟨by decide, by decide +kernel⟩, by decide +kernel⟩

end WebcamStreamer
