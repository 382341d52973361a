import WebcamStreamer.YamlScalars

/-!
# YAML block mappings

A document as its settings: each key with the path that leads to it, and the
node behind its colon. The blocks are mappings of words to values, and sequences
of mappings whose dash stands on the line of the first key. A document in
anything else is not read, and neither is one that has a key twice.

This is a reader for the subset of the language that configuration files of
this kind are written in, and it is partial on purpose: what it does not
understand it does not load, so that a result about loaded documents never
rests on a guess. The nodes behind the colons are read by the module on
scalars. Indentation is what holds the blocks together, and it is looked at
without the nodes (`paths`), which is why a text without a line break that is
put behind a colon cannot move a key.
-/

namespace Yaml

/-! ## Lines

A line is blank, a comment, or a key with a node behind its colon, and it may
begin with the dash of an item. Nothing else occurs in the documents that are
read here. -/

/-- A line with a key: the column of what stands first on it, the column of the
key, which differs behind a dash, the key, and the node behind the colon. -/
structure Entry where
  indent : ℕ
  column : ℕ
  key : List Char
  node : Node
  deriving DecidableEq

/-- A character of a key. -/
def isKeyChar (c : Char) : Bool := c.isAlphanum || c = '_'

/-- A key, its colon and the node behind it. -/
def readPair (indent column : ℕ) (t : List Char) : Option Entry :=
  match t.dropWhile isKeyChar with
  | [] => none
  | c :: rest =>
    if c = ':' ∧ t.takeWhile isKeyChar ≠ [] ∧ rest.head?.all isBlank = true then
      (readNode rest).map (⟨indent, column, t.takeWhile isKeyChar, ·⟩)
    else none

/-- The key behind the spaces of a line, and behind the dash of an item. -/
def readBody (indent : ℕ) : List Char → Option Entry
  | '-' :: ' ' :: rest =>
    readPair indent (indent + 2 + (rest.takeWhile (· = ' ')).length)
      (rest.dropWhile (· = ' '))
  | body => readPair indent indent body

/-- What a line holds: a key, or none when it is blank or a comment. -/
def readLine (l : List Char) : Option (Option Entry) :=
  if (l.dropWhile isBlank).head?.all (· = '#') then some none
  else (readBody (l.takeWhile (· = ' ')).length
    (l.dropWhile (· = ' '))).map some

/-- The entries of the lines. -/
def readLines : List (List Char) → Option (List Entry)
  | [] => some []
  | l :: ls => (readLine l).bind fun e => (readLines ls).map (e.toList ++ ·)

/-! ## Blocks

Where a key belongs is decided by the columns alone: a block ends where a line
stands further left. The path to a key is therefore known before any node is
looked at. -/

/-- A step to a value: to a key of a mapping, or to an item of a sequence. -/
inductive PathStep where
  | key (k : List Char)
  | item (i : ℕ)
  deriving DecidableEq

/-- The way to a value, with the last step in front. -/
abbrev Path := List PathStep

/-- A block that is open: the column of its keys or dashes, how many items it
has if it is a sequence, and the path to it. -/
structure Block where
  column : ℕ
  items : Option ℕ
  path : Path
  deriving DecidableEq

/-- What the layout of the document depends on. -/
structure Shape where
  indent : ℕ
  column : ℕ
  key : List Char
  /-- There is no node on the line, so that a block may follow. -/
  isOpen : Bool
  deriving DecidableEq

def Entry.shape (e : Entry) : Shape :=
  ⟨e.indent, e.column, e.key, e.node = .missing⟩

/-- The block that a line belongs to, in front of those it is in: an open one
with its column, after those further right were closed, or a new one below the
key whose node is `pending`. -/
def blocksAt (stack : List Block) (pending : Option Path) (s : Shape) :
    Option (Block × List Block) :=
  match stack.dropWhile (fun b => s.indent < b.column) with
  | b :: rest =>
    if b.column = s.indent then some (b, rest)
    else if stack.head? = some b then
      pending.map (⟨s.indent, if s.indent < s.column then some 0 else none, ·⟩,
        b :: rest)
    else none
  | [] =>
    if stack = [] then
      pending.map (⟨s.indent, if s.indent < s.column then some 0 else none, ·⟩,
        [])
    else none

/-- The blocks after a line, and the path to its key. -/
def place (stack : List Block) (pending : Option Path) (s : Shape) :
    Option (List Block × Path) :=
  (blocksAt stack pending s).bind fun (b, rest) =>
    match b.items with
    | none =>
      if s.indent < s.column then
        none
      else some (b :: rest, .key s.key :: b.path)
    | some i =>
      if s.indent < s.column then
        let item : Block := ⟨s.column, none, .item i :: b.path⟩
        some (item :: { b with items := some (i + 1) } :: rest,
          .key s.key :: item.path)
      else none

/-- The paths to the keys of a document; none is there twice. -/
def placeAll (stack : List Block) (pending : Option Path) (seen : List Path) :
    List Shape → Option (List Path)
  | [] => some []
  | s :: rest =>
    (place stack pending s).bind fun (stack', path) =>
      if path ∈ seen then none
      else
        (placeAll stack' (if s.isOpen then some path else none)
          (path :: seen) rest).map (path :: ·)

/-! ## Documents

Loading a document puts the two together: the shape gives the paths, and the
nodes give the values. A document in which a path occurs twice is not
loaded. -/

/-- The paths to the keys of a document, in the order of the lines. -/
def paths (shapes : List Shape) : Option (List Path) :=
  placeAll [] (some []) [] shapes

/-- The nodes of a document with the paths to them. -/
def nodes (text : List Char) : Option (List (Path × Node)) :=
  if text.all (fun c => isPrintable c || isBreak c) then
    (readLines (text.splitOnP isBreak)).bind fun entries =>
      (paths (entries.map Entry.shape)).map
        (fun ps => ps.zip (entries.map Entry.node))
  else none

/-- **The settings of a document**: the value of each key with the path to it.
It has a value only for documents of the subset that the template is written
in, and none for everything else. -/
def load (isString : List Char → Bool) (text : List Char) :
    Option (List (Path × Value)) :=
  (nodes text).map (fun settings => settings.map (fun s => (s.1,
    s.2.value isString)))

/-! ## Lines one by one

For the lines that a program generates it can be said in advance how they are
read, with the texts in them left open. -/

/-- What comes behind spaces. -/
theorem dropWhile_spaces {f : Char → Bool} (hf : f ' ' = true)
    (n : ℕ) {c : Char}
    (hc : f c = false) (rest : List Char) :
    (List.replicate n ' ' ++ c :: rest).dropWhile f = c :: rest := by
  rw [List.dropWhile_append_of_pos (by simpa using fun _ => hf)]
  exact List.dropWhile_cons_of_neg (by simp [hc])

/-- A line that begins with a number sign is a comment, whatever follows. -/
theorem readLine_comment (n : ℕ) (t : List Char) :
    readLine (List.replicate n ' ' ++ '#' :: t) = some none := by
  rw [readLine, dropWhile_spaces rfl n (by decide)]
  rfl

/-- Any other line holds a key behind its spaces. -/
theorem readLine_spaces (n : ℕ) {c : Char} (hblank : isBlank c = false)
    (hc : c ≠ '#')
    (rest : List Char) :
    readLine (List.replicate n ' ' ++ c :: rest)
      = (readBody n (c :: rest)).map some := by
  have hspace : c ≠ ' ' := by
    rintro rfl
    cases hblank
  have hindent :
      ((List.replicate n ' ' ++ c :: rest).takeWhile (· = ' ')).length = n := by
    rw [List.takeWhile_append_of_pos (by simp),
      List.takeWhile_cons_of_neg (by simp [hspace])]
    simp
  rw [readLine, dropWhile_spaces rfl n hblank,
    dropWhile_spaces rfl n (by simp [hspace]), hindent]
  exact if_neg (by simpa using hc)

/-- A word, a colon and a node. -/
theorem readPair_append {key : List Char} (hkey : key.all isKeyChar = true)
    (hne : key ≠ [])
    {rest : List Char} (hrest : rest.head?.all isBlank = true)
    (indent column : ℕ) :
    readPair indent column (key ++ ':' :: rest)
      = (readNode rest).map (⟨indent, column, key, ·⟩) := by
  have hword : ∀ c ∈ key, isKeyChar c = true := List.all_eq_true.mp hkey
  have hdrop : (key ++ ':' :: rest).dropWhile isKeyChar = ':' :: rest := by
    rw [List.dropWhile_append_of_pos hword]
    exact List.dropWhile_cons_of_neg (by decide)
  have htake : (key ++ ':' :: rest).takeWhile isKeyChar = key := by
    rw [List.takeWhile_append_of_pos hword,
      List.takeWhile_cons_of_neg (by decide), List.append_nil]
  rw [readPair, hdrop, htake]
  exact if_pos ⟨rfl, hne, hrest⟩

/-- A key begins with neither a blank nor one of the marks of a line. -/
theorem exists_cons_of_isKeyChar {key : List Char}
    (hkey : key.all isKeyChar = true)
    (hne : key ≠ []) :
    ∃ c cs, key = c :: cs ∧ isBlank c = false ∧ c ≠ '#' ∧ c ≠ ' ' ∧
      c ≠ '-' := by
  obtain ⟨c, cs, rfl⟩ := List.exists_cons_of_ne_nil hne
  have hc : isKeyChar c = true := List.all_eq_true.mp hkey c (by simp)
  have hmark : ∀ d, isKeyChar d = false → c ≠ d := by
    rintro d hd rfl
    exact Bool.noConfusion (hc.symm.trans hd)
  refine ⟨c, cs, rfl, ?_, hmark '#' (by decide), hmark ' ' (by decide),
    hmark '-' (by decide)⟩
  simp [isBlank, hmark ' ' (by decide), hmark '\t' (by decide)]

/-- **A line with a key.** The depth of the key is the number of blanks in
front of it, and its node is what stands behind the colon. -/
theorem readLine_key (n : ℕ) {key : List Char} (hkey : key.all isKeyChar = true)
    (hne : key ≠ [])
    {rest : List Char} (hrest : rest.head?.all isBlank = true) :
    readLine (List.replicate n ' ' ++ (key ++ ':' :: rest))
      = (readNode rest).map (fun node => some ⟨n, n, key, node⟩) := by
  have hpair := readPair_append hkey hne hrest n n
  obtain ⟨c, cs, rfl, hblank, hcomment, -, hdash⟩ :=
    exists_cons_of_isKeyChar hkey hne
  have hbody : readBody n (c :: (cs ++ ':' :: rest))
      = readPair n n (c :: (cs ++ ':' :: rest)) := by
    unfold readBody
    split
    next heq => exact absurd (List.cons.inj heq).1 hdash
    next => rfl
  rw [List.cons_append] at hpair ⊢
  rw [readLine_spaces n hblank hcomment, hbody, hpair, Option.map_map]
  rfl

/-- **A line with the first key of an item.** The dash counts as two more
columns, so that the next keys of the item stand under the first one. -/
theorem readLine_item (n : ℕ) {key : List Char}
    (hkey : key.all isKeyChar = true) (hne : key ≠ [])
    {rest : List Char} (hrest : rest.head?.all isBlank = true) :
    readLine (List.replicate n ' ' ++ '-' :: ' ' :: (key ++ ':' :: rest))
      = (readNode rest).map (fun node => some ⟨n, n + 2, key, node⟩) := by
  have hpair := readPair_append hkey hne hrest n (n + 2)
  obtain ⟨c, cs, rfl, -, -, hspace, -⟩ := exists_cons_of_isKeyChar hkey hne
  have hbody : readBody n ('-' :: ' ' :: (c :: cs ++ ':' :: rest))
      = readPair n (n + 2) (c :: cs ++ ':' :: rest) := by
    rw [readBody, List.cons_append,
      List.takeWhile_cons_of_neg (by simp [hspace]),
      List.dropWhile_cons_of_neg (by simp [hspace])]
    rfl
  rw [readLine_spaces n (by decide) (by decide), hbody, hpair, Option.map_map]
  rfl

/-! ## Lines together

A text of printable lines is split into those lines again, since a printable
character is no line break. -/

theorem readLines_append (ls ls' : List (List Char)) :
    readLines (ls ++ ls')
      = (readLines ls).bind fun es => (readLines ls').map (es ++ ·) := by
  induction ls with
  | nil => cases h : readLines ls' <;> simp [readLines, h]
  | cons l ls ih =>
    rw [List.cons_append, readLines, ih, readLines]
    cases readLine l with
    | none => rfl
    | some e => cases readLines ls <;> cases readLines ls' <;> simp

/-- A text of lines, each with its break. -/
def unlines (ls : List (List Char)) : List Char := ls.flatMap (· ++ ['\n'])

/-- Lines that have no breaks are found again, with nothing behind the last. -/
theorem splitOnP_unlines {ls : List (List Char)}
    (h : ∀ l ∈ ls, ∀ c ∈ l, isBreak c = false) :
    (unlines ls).splitOnP isBreak = ls ++ [[]] := by
  induction ls with
  | nil => rfl
  | cons l ls ih =>
    have hl : ∀ c ∈ l, isBreak c = false := h l (by simp)
    have htext : unlines (l :: ls) = l ++ '\n' :: unlines ls := by
      simp [unlines]
    rw [htext, List.splitOnP_append_cons_of_forall_mem hl _ (by decide),
      ih (fun l' hl' => h l' (by simp [hl']))]
    rfl

/-- **A text of printable lines** is read line by line. Splitting gives back
the lines that were joined, and the indentation gives each of them its
path. -/
theorem nodes_unlines {ls : List (List Char)} (h : ∀ l ∈ ls, Printable l) :
    nodes (unlines ls)
      = (readLines ls).bind fun entries =>
          (paths (entries.map Entry.shape)).map
            (fun ps => ps.zip (entries.map Entry.node)) := by
  have hall : (unlines ls).all (fun c => isPrintable c || isBreak c)
      = true := by
    rw [unlines, List.all_flatMap, List.all_eq_true]
    intro l hl
    rw [List.all_append,
      List.all_eq_true.mpr (fun c hc => by simp [h l hl c hc])]
    rfl
  have hlast : readLines (ls ++ [[]]) = readLines ls := by
    rw [readLines_append]
    cases readLines ls <;> simp [readLines, readLine]
  rw [nodes, if_pos hall,
    splitOnP_unlines (fun l hl c hc => isBreak_of_isPrintable (h l hl c hc)),
    hlast]

/-! ## Where the strings come from

A string that was read stands somewhere in the text, so that what holds of all
characters of the text holds of the string. -/

theorem of_mem_splitOnP {f : Char → Bool} {t l : List Char}
    (hl : l ∈ t.splitOnP f) {c : Char}
    (hc : c ∈ l) : c ∈ t ∧ f c = false := by
  induction t generalizing l with
  | nil =>
    obtain rfl := List.mem_singleton.mp hl
    cases hc
  | cons d t ih =>
    rw [List.splitOnP_cons_eq_if_modifyHead] at hl
    split at hl
    next =>
      rcases List.mem_cons.mp hl with rfl | hl
      · cases hc
      · exact (ih hl hc).imp_left (List.mem_cons_of_mem d)
    next hd =>
      obtain ⟨first, others, ht⟩ :=
        List.exists_cons_of_ne_nil (List.splitOnP_ne_nil f t)
      rw [ht, List.modifyHead_cons] at hl
      rw [ht] at ih
      rcases List.mem_cons.mp hl with rfl | hl
      · rcases List.mem_cons.mp hc with rfl | hc
        · exact ⟨List.mem_cons_self, by simpa using hd⟩
        · exact (ih List.mem_cons_self hc).imp_left (List.mem_cons_of_mem d)
      · exact (ih (List.mem_cons_of_mem _ hl) hc).imp_left
          (List.mem_cons_of_mem d)

/-- The node of a line is read from a part of it. -/
theorem exists_of_readPair {indent column : ℕ} {t : List Char} {e : Entry}
    (h : readPair indent column t = some e) :
    ∃ t', t' ⊆ t ∧ readNode t' = some e.node := by
  rw [readPair] at h
  split at h
  next => cases h
  next c rest hdrop =>
    obtain ⟨-, h⟩ := Option.ite_none_right_eq_some.mp h
    obtain ⟨node, hnode, rfl⟩ := Option.map_eq_some_iff.mp h
    have hrest : c :: rest ⊆ t :=
      hdrop ▸ (List.dropWhile_suffix isKeyChar).subset
    exact ⟨rest, fun d hd => hrest (List.mem_cons_of_mem c hd), hnode⟩

theorem exists_of_readLine {l : List Char} {e : Entry}
    (h : readLine l = some (some e)) :
    ∃ t, t ⊆ l ∧ readNode t = some e.node := by
  rw [readLine] at h
  split at h
  next => cases h
  next =>
    obtain ⟨e', hbody, he⟩ := Option.map_eq_some_iff.mp h
    obtain rfl := Option.some.inj he
    have hl := (List.dropWhile_suffix (· = ' ') (l := l)).subset
    unfold readBody at hbody
    split at hbody
    next rest hdrop =>
      obtain ⟨t, ht, hnode⟩ := exists_of_readPair hbody
      refine ⟨t, fun c hc => hl ?_, hnode⟩
      rw [hdrop]
      have hrest := (List.dropWhile_suffix (· = ' ') (l := rest)).subset (ht hc)
      exact List.mem_cons_of_mem _ (List.mem_cons_of_mem _ hrest)
    next =>
      obtain ⟨t, ht, hnode⟩ := exists_of_readPair hbody
      exact ⟨t, fun c hc => hl (ht hc), hnode⟩

theorem exists_of_mem_readLines {ls : List (List Char)} {es : List Entry}
    (h : readLines ls = some es) {e : Entry} (he : e ∈ es) :
    ∃ l ∈ ls, readLine l = some (some e) := by
  induction ls generalizing es with
  | nil =>
    obtain rfl := Option.some.inj h
    cases he
  | cons l ls ih =>
    obtain ⟨first, hl, h⟩ := Option.bind_eq_some_iff.mp h
    obtain ⟨rest, hls, rfl⟩ := Option.map_eq_some_iff.mp h
    rcases List.mem_append.mp he with he | he
    · obtain rfl := Option.mem_toList.mp he
      exact ⟨l, List.mem_cons_self, hl⟩
    · obtain ⟨l', hl', hread⟩ := ih hls he
      exact ⟨l', List.mem_cons_of_mem l hl', hread⟩

theorem isPrintable_or_isBreak_of_mem {isString : List Char → Bool}
    {text : List Char}
    {settings : List (Path × Value)}
    (h : load isString text = some settings) {c : Char}
    (hc : c ∈ text) : isPrintable c = true ∨ isBreak c = true := by
  obtain ⟨settings', hnodes, -⟩ := Option.map_eq_some_iff.mp h
  obtain ⟨hall, -⟩ := Option.ite_none_right_eq_some.mp hnodes
  exact Bool.or_eq_true_iff.mp (List.all_eq_true.mp hall c hc)

/-- **A string of a document has no line break**, and only characters that may
stand in a document. So a credential with a line break can be read back from
no document, however it was pasted. -/
theorem printable_of_mem_load {isString : List Char → Bool} {text s : List Char}
    {settings : List (Path × Value)}
    (h : load isString text = some settings) {p : Path}
    (hs : (p, .str s) ∈ settings) : Printable s := by
  intro c hc
  have hchar := fun hc => isPrintable_or_isBreak_of_mem h hc (c := c)
  obtain ⟨settings', hnodes, rfl⟩ := Option.map_eq_some_iff.mp h
  obtain ⟨⟨p', node⟩, hmem, hvalue⟩ := List.mem_map.mp hs
  obtain ⟨-, hnodes⟩ := Option.ite_none_right_eq_some.mp hnodes
  obtain ⟨es, hes, hpaths⟩ := Option.bind_eq_some_iff.mp hnodes
  obtain ⟨ps, -, rfl⟩ := Option.map_eq_some_iff.mp hpaths
  obtain ⟨e, he, rfl⟩ := List.mem_map.mp (List.of_mem_zip hmem).2
  obtain ⟨l, hl, hread⟩ := exists_of_mem_readLines hes he
  obtain ⟨t, ht, hnode⟩ := exists_of_readLine hread
  have hcl : c ∈ l :=
    ht (subset_of_readNode hnode (congrArg Prod.snd hvalue) hc)
  obtain ⟨htext, hbreak⟩ := of_mem_splitOnP hl hcl
  exact (hchar htext).resolve_right (by simp [hbreak])

end Yaml
