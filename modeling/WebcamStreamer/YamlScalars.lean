import Mathlib.Data.List.Chain
import Mathlib.Data.List.DropRight

/-!
# YAML scalars on one line

The rules for what stands behind the colon of a block mapping, on the line of
the colon: plain scalars, single-quoted scalars, and sequences in brackets of
plain scalars. What is a string among the plain scalars depends on the schema,
which is a parameter; `coreIsString` is the core schema.

Anything else is not read: double quotes, anchors, tags, block scalars, mappings
in braces, and scalars that go on over a line break. None of these has its own
text for a value: the indicator in front is no part of it, and a break that is
folded is lost.
-/

namespace Yaml

/-! ## Characters

The characters are those of the YAML specification: blanks, breaks, and what
may stand in a document at all. The byte-order mark may only stand in front of
one and is left out. -/

/-- White space within a line. -/
def isBlank (c : Char) : Bool := c = ' ' || c = '\t'

/-- A line break. -/
def isBreak (c : Char) : Bool := c = '\n' || c = '\r'

/-- A character that may stand in a document, line breaks and the byte order
mark apart. -/
def isPrintable (c : Char) : Bool :=
  c = '\t' || (0x20 ≤ c.toNat && c.toNat ≤ 0x7E) || c.toNat = 0x85
    || (0xA0 ≤ c.toNat && c.toNat ≤ 0xFFFD
      && c.toNat ≠ 0xFEFF) || 0x10000 ≤ c.toNat

/-- A text of characters that may stand on a line. -/
def Printable (t : List Char) : Prop := ∀ c ∈ t, isPrintable c = true

instance (t : List Char) : Decidable (Printable t) :=
  @List.decidableBAll Char (fun c => isPrintable c = true)
    (fun _ => inferInstance) t

theorem printable_append {s t : List Char} :
    Printable (s ++ t) ↔ Printable s ∧ Printable t :=
  List.forall_mem_append

theorem printable_cons {c : Char} {t : List Char} :
    Printable (c :: t) ↔ isPrintable c = true ∧ Printable t :=
  List.forall_mem_cons

/-- A printable character does not break a line. -/
theorem isBreak_of_isPrintable {c : Char} (h : isPrintable c = true) :
    isBreak c = false := by
  have hne : ∀ d, isPrintable d = false → c ≠ d := by
    rintro d hd rfl
    exact Bool.noConfusion (h.symm.trans hd)
  simp [isBreak, hne '\n' (by decide), hne '\r' (by decide)]

/-- The characters that begin no plain scalar; the last is the backtick. -/
def indicators : List Char :=
  [',', '[', ']', '{', '}', '#', '&', '*', '!', '|', '>', '\'', '"', '%', '@',
    Char.ofNat 0x60]

/-! ## Nodes and values

A node is what stands behind the colon, together with its style; a value is
what it means. A plain scalar can mean something else than a string, and the
schema decides. -/

/-- What stands behind a colon, with the style of a scalar. -/
inductive Node where
  | missing
  | plain (s : List Char)
  | quoted (s : List Char)
  | seq (items : List (List Char))
  deriving DecidableEq

/-- What a node means. -/
inductive Value where
  | missing
  | str (s : List Char)
  /-- A plain scalar that is null, a truth value or a number. -/
  | other (s : List Char)
  | seq (items : List (List Char))
  deriving DecidableEq

/-- The value of a node under a schema; a quoted scalar is always a string. -/
def Node.value (isString : List Char → Bool) : Node → Value
  | .missing => .missing
  | .plain s => if isString s then .str s else .other s
  | .quoted s => .str s
  | .seq items => .seq items

/-! ## Reading

The reader covers what can stand on the line of a colon: a plain scalar, a
scalar in single quotes, a sequence in brackets, or nothing. A scalar in
double quotes and the rarer constructs are not read. -/

/-- The text of a single-quoted scalar for a string. -/
def escape (s : List Char) : List Char :=
  s.flatMap (fun c => if c = '\'' then ['\'', '\''] else [c])

/-- The string up to the quote that closes it, and what follows. -/
def readQuoted : List Char → Option (List Char × List Char)
  | [] => none
  | c :: cs =>
    if c = '\'' then
      match cs with
      | [] => some ([], [])
      | d :: ds =>
        if d = '\'' then
          (readQuoted ds).map (fun r => ('\'' :: r.1, r.2))
        else some ([], d :: ds)
    else (readQuoted cs).map (fun r => (c :: r.1, r.2))

/-- What may stand behind a value: nothing, or a comment behind a blank. -/
def isTrailer (t : List Char) : Bool :=
  match t.dropWhile isBlank with
  | [] => true
  | c :: _ => c = '#' && t.head?.any isBlank

/-- The text up to a comment; `afterBlank` says that a blank stands before
it. -/
def cutComment : Bool → List Char → List Char
  | _, [] => []
  | afterBlank, c :: cs =>
    if afterBlank = true ∧ c = '#' then [] else c :: cutComment (isBlank c) cs

/-- The first characters are those of a plain scalar. -/
def startsPlain : List Char → Bool
  | [] => false
  | c :: cs =>
    !isBlank c && !indicators.contains c
      && (!(['-', '?', ':'].contains c) || cs.head?.any (fun d => !isBlank d))

/-- There is a colon that would make a key of what stands before it. -/
def hasMapping : List Char → Bool
  | [] => false
  | c :: cs => (c = ':' && cs.head?.all isBlank) || hasMapping cs

/-- A plain scalar and the comment behind it. -/
def readPlain (t : List Char) : Option Node :=
  let body := (cutComment false t).rdropWhile isBlank
  if startsPlain body = true ∧ hasMapping body = false then
    some (.plain body)
  else none

/-- An item of a sequence in brackets, without the blanks around it. -/
def readItem (t : List Char) : Option (List Char) :=
  let body := (t.dropWhile isBlank).rdropWhile isBlank
  if startsPlain body = true ∧ hasMapping body = false
      ∧ body.all (fun c => !(['[', ']', '{', '}', '#'].contains c)) = true then
        some body
  else none

/-- A sequence behind its opening bracket. -/
def readFlow (t : List Char) : Option Node :=
  match t.dropWhile (· ≠ ']') with
  | [] => none
  | _ :: rest =>
    if isTrailer rest then
      (((t.takeWhile (· ≠ ']')).splitOn ',').mapM readItem).map .seq
    else none

/-- **The node behind the colon of a key.** The first character decides:
nothing or a comment, a quote, a flow sequence, or else a plain scalar. -/
def readNode (t : List Char) : Option Node :=
  match t.dropWhile isBlank with
  | [] => some .missing
  | c :: cs =>
    if c = '#' then some .missing
    else if c = '\'' then
      match readQuoted cs with
      | none => none
      | some (s, rest) => if isTrailer rest then some (.quoted s) else none
    else if c = '[' then readFlow cs
    else readPlain (c :: cs)

/-! ## The core schema

The core schema says which plain scalars are no strings: null, the truth
values and the numbers. Other schemas differ in the words they know, which is
why the schema is a parameter elsewhere. -/

/-- A number's text without its sign. -/
def unsigned : List Char → List Char
  | [] => []
  | c :: cs => if c = '-' ∨ c = '+' then cs else c :: cs

/-- One digit or more. -/
def allOf (p : Char → Bool) (t : List Char) : Bool := !t.isEmpty && t.all p

/-- An integer: decimal with a sign, or octal or hexadecimal. -/
def isInteger (t : List Char) : Bool :=
  allOf Char.isDigit (unsigned t)
    || (t.take 2 == ['0', 'o']
      && allOf (fun c => '0' ≤ c && c ≤ '7') (t.drop 2))
    || (t.take 2 == ['0', 'x']
      && allOf (fun c => c.isDigit || ('a' ≤ c && c ≤ 'f')
      || ('A' ≤ c && c ≤ 'F')) (t.drop 2))

/-- A number without sign and exponent: digits with a point or without. -/
def isMantissa (t : List Char) : Bool :=
  match t.dropWhile Char.isDigit with
  | [] => !t.isEmpty
  | c :: cs =>
    c = '.' && cs.all Char.isDigit && (!cs.isEmpty || t.head?.any Char.isDigit)

/-- A floating-point number, an infinity, or no number. -/
def isFloat (t : List Char) : Bool :=
  let body := unsigned t
  let mantissa := body.takeWhile (fun c => c ≠ 'e' && c ≠ 'E')
  let exponent := body.dropWhile (fun c => c ≠ 'e' && c ≠ 'E')
  (isMantissa mantissa
    && (exponent.isEmpty || allOf Char.isDigit (unsigned exponent.tail)))
    || [".inf".toList, ".Inf".toList, ".INF".toList].contains body
    || [".nan".toList, ".NaN".toList, ".NAN".toList].contains t

/-- The words for null and the truth values. -/
def coreWords : List (List Char) :=
  ["~", "null", "Null", "NULL", "true", "True", "TRUE", "false", "False",
    "FALSE"].map
    String.toList

/-- **The core schema**: the plain scalars that are strings. A plain scalar is
something else where it is one of the words of the schema or looks like a
number. -/
def coreIsString (t : List Char) : Bool :=
  !(coreWords.contains t || isInteger t || isFloat t)

example : coreIsString "viewer".toList = true ∧
    coreIsString "1234e567".toList = false := by
  decide

/-! ## Single-quoted scalars

A quote is written twice inside of single quotes, and the first one that is
not doubled ends the scalar. So what is escaped is read back, and nothing else
is read as it. -/

@[simp] theorem escape_nil : escape [] = [] := rfl

@[simp] theorem escape_cons_quote (s : List Char) :
    escape ('\'' :: s) = '\'' :: '\'' :: escape s :=
  rfl

theorem escape_cons_of_ne {c : Char} (hc : c ≠ '\'') (s : List Char) :
    escape (c :: s) = c :: escape s := by
  simp [escape, hc]

theorem escape_append (s t : List Char) :
    escape (s ++ t) = escape s ++ escape t :=
  List.flatMap_append

/-- Induction along a text, with the quotes apart. -/
@[elab_as_elim]
theorem quote_induction {motive : List Char → Prop} (nil : motive [])
    (quote : ∀ s, motive s → motive ('\'' :: s))
    (other : ∀ c s, c ≠ '\'' → motive s → motive (c :: s)) (s : List Char) :
    motive s := by
  induction s with
  | nil => exact nil
  | cons c s ih =>
    by_cases hc : c = '\''
    · subst hc
      exact quote s ih
    · exact other c s hc ih

/-- What is escaped is read back up to the quote behind it. -/
theorem readQuoted_escape (s : List Char) {rest : List Char}
    (h : rest.head? ≠ some '\'') :
    readQuoted (escape s ++ '\'' :: rest) = some (s, rest) := by
  induction s using quote_induction with
  | nil =>
    cases rest with
    | nil => rfl
    | cons d ds =>
      have hd : d ≠ '\'' := fun hd => h (congrArg some hd)
      simp [readQuoted, hd]
  | quote s ih => simp [readQuoted, ih]
  | other c s hc ih =>
    rw [escape_cons_of_ne hc, List.cons_append, readQuoted.eq_def]
    simp [hc, ih]

/-- Only what is escaped is read. -/
theorem eq_escape_of_readQuoted {t s rest : List Char}
    (h : readQuoted t = some (s, rest)) :
    t = escape s ++ '\'' :: rest ∧ rest.head? ≠ some '\'' := by
  fun_induction readQuoted t generalizing s with
  | case1 => cases h
  | case2 =>
    obtain ⟨rfl, rfl⟩ := Prod.mk.inj (Option.some.inj h)
    exact ⟨rfl, nofun⟩
  | case3 ds ih =>
    obtain ⟨⟨s', rest'⟩, hread, hs⟩ := Option.map_eq_some_iff.mp h
    obtain ⟨rfl, rfl⟩ := Prod.mk.inj hs
    obtain ⟨rfl, hrest⟩ := ih hread
    exact ⟨rfl, hrest⟩
  | case4 d ds hd =>
    obtain ⟨rfl, rfl⟩ := Prod.mk.inj (Option.some.inj h)
    exact ⟨rfl, fun hhead => hd (Option.some.inj hhead)⟩
  | case5 c cs hc ih =>
    obtain ⟨⟨s', rest'⟩, hread, hs⟩ := Option.map_eq_some_iff.mp h
    obtain ⟨rfl, rfl⟩ := Prod.mk.inj hs
    obtain ⟨rfl, hrest⟩ := ih hread
    exact ⟨by rw [escape_cons_of_ne hc]; rfl, hrest⟩

/-- **A single-quoted scalar** is read up to the first quote that is not
doubled. A doubled quote inside is one quote of the text, so that what was
escaped comes back. -/
theorem readQuoted_eq_some_iff {t s rest : List Char} :
    readQuoted t = some (s, rest) ↔
      t = escape s ++ '\'' :: rest ∧ rest.head? ≠ some '\'' := by
  constructor
  · exact eq_escape_of_readQuoted
  · rintro ⟨rfl, hrest⟩
    exact readQuoted_escape s hrest

theorem length_le_length_escape (s : List Char) :
    s.length ≤ (escape s).length := by
  induction s using quote_induction with
  | nil => simp
  | quote s ih =>
    simp only [escape_cons_quote, List.length_cons]
    omega
  | other c s hc ih =>
    rw [escape_cons_of_ne hc]
    simpa using ih

/-- Doubling the quotes takes no character away. -/
theorem mem_escape {c : Char} {s : List Char} : c ∈ escape s ↔ c ∈ s := by
  induction s using quote_induction with
  | nil => simp
  | quote s ih => simp [ih]
  | other d s hd ih => simp [escape_cons_of_ne hd, ih]

/-! ## Plain scalars

A plain scalar stands for itself under a number of conditions, on its first
characters, on colons and on number signs. They are shown to be exactly what
the reader asks for. -/

/-- **A plain scalar that stands for itself**: a text that begins none of the
other constructs, holds no key and no comment, and does not end in a blank. -/
structure PlainScalar (s : List Char) : Prop where
  starts : startsPlain s = true
  noMapping : hasMapping s = false
  noComment : s.IsChain (fun a b => isBlank a = true → b ≠ '#')
  last : ∀ c ∈ s.getLast?, isBlank c = false

/-- A text without a comment mark behind a blank is not cut. -/
theorem cutComment_eq_self {afterBlank : Bool} {t : List Char}
    (hhead : afterBlank = true → t.head? ≠ some '#')
    (h : t.IsChain (fun a b => isBlank a = true → b ≠ '#')) :
    cutComment afterBlank t = t := by
  induction t generalizing afterBlank with
  | nil => rfl
  | cons c t ih =>
    have hno : ¬ (afterBlank = true ∧ c = '#') :=
      fun hc => hhead hc.1 (congrArg some hc.2)
    rw [List.isChain_cons] at h
    rw [cutComment, if_neg hno, ih (fun hb hc => h.1 '#' hc hb rfl) h.2]

/-- What is left has no comment mark behind a blank. -/
theorem isChain_cutComment (afterBlank : Bool) (t : List Char) :
    (afterBlank = true → (cutComment afterBlank t).head? ≠ some '#')
      ∧ (cutComment afterBlank t).IsChain (fun a b => isBlank a = true →
        b ≠ '#') := by
  induction t generalizing afterBlank with
  | nil => simp [cutComment]
  | cons c t ih =>
    rw [cutComment]
    split
    next => simp
    next hno =>
      refine ⟨fun hb hc => hno ⟨hb, Option.some.inj hc⟩, ?_⟩
      rw [List.isChain_cons]
      exact ⟨fun b hb hblank hc =>
        (ih _).1 hblank (hb.trans (congrArg some hc)), (ih _).2⟩

theorem isPrefix_cutComment (afterBlank : Bool) (t : List Char) :
    cutComment afterBlank t <+: t := by
  induction t generalizing afterBlank with
  | nil => exact List.prefix_rfl
  | cons c t ih =>
    rw [cutComment]
    split
    next => exact List.nil_prefix
    next => exact (List.cons_prefix_cons).mpr ⟨rfl, ih _⟩

/-- A text that stands for itself is read as it is. -/
theorem PlainScalar.readPlain {s : List Char} (h : PlainScalar s) :
    readPlain s = some (.plain s) := by
  have hcut : cutComment false s = s := cutComment_eq_self nofun h.noComment
  have hblank : s.rdropWhile isBlank = s := by
    rw [List.rdropWhile_eq_self_iff]
    intro hne
    simpa using h.last _ (List.getLast?_eq_some_getLast hne)
  simp [Yaml.readPlain, hcut, hblank, h.starts, h.noMapping]

/-- **A plain scalar that is read stands for itself**: it is what stands before
a comment and the blanks at the end. -/
theorem plainScalar_of_readPlain {t s : List Char}
    (h : readPlain t = some (.plain s)) :
    PlainScalar s ∧ s = (cutComment false t).rdropWhile isBlank := by
  simp only [readPlain, Option.ite_none_right_eq_some] at h
  obtain ⟨⟨hstarts, hmapping⟩, hs⟩ := h
  obtain rfl := Node.plain.inj (Option.some.inj hs)
  have hprefix := List.rdropWhile_prefix isBlank (cutComment false t)
  have hchain := List.IsChain.prefix (isChain_cutComment false t).2 hprefix
  refine ⟨⟨hstarts, hmapping, hchain, ?_⟩, rfl⟩
  intro c hc
  obtain ⟨hne, rfl⟩ := List.mem_getLast?_eq_getLast hc
  simpa using List.rdropWhile_last_not isBlank _ hne

/-- The first character begins none of the other constructs. -/
theorem PlainScalar.exists_cons {s : List Char} (h : PlainScalar s) :
    ∃ c cs, s = c :: cs ∧ isBlank c = false ∧ c ∉ indicators := by
  have hstarts := h.starts
  cases s with
  | nil => cases hstarts
  | cons c cs =>
    simp only [startsPlain, Bool.and_eq_true, Bool.not_eq_true'] at hstarts
    exact ⟨c, cs, rfl, hstarts.1.1, by simpa using hstarts.1.2⟩

/-- A text without a colon holds no key. -/
theorem hasMapping_of_notMem {s : List Char} (h : ':' ∉ s) :
    hasMapping s = false := by
  induction s with
  | nil => rfl
  | cons c s ih =>
    have hc : c ≠ ':' := fun hc => h (hc ▸ List.mem_cons_self)
    simp [hasMapping, hc, ih (fun hs => h (List.mem_cons_of_mem c hs))]

/-- A text of two characters or more, none of which has a meaning in YAML but
for dashes and question marks, stands for itself. -/
theorem plainScalar_of_forall {s : List Char} (hlen : 2 ≤ s.length)
    (h : ∀ c ∈ s, isBlank c = false ∧ c ∉ indicators ∧ c ≠ ':') :
    PlainScalar s := by
  match s with
  | c :: d :: rest =>
    obtain ⟨hc, hmark, -⟩ := h c (by simp)
    obtain ⟨hd, -, -⟩ := h d (by simp)
    exact
      { starts := by simp [startsPlain, hc, hmark, hd]
        noMapping := hasMapping_of_notMem (fun hcolon => (h _ hcolon).2.2 rfl)
        noComment := List.Pairwise.isChain
          (List.pairwise_of_forall_mem_list
            fun a ha _ _ hblank => by simp [h a ha] at hblank)
        last := fun a ha => (h a (List.mem_of_getLast? ha)).1 }

/-! ## Nodes behind a colon

Put together, the strings that may stand unquoted behind a colon are those
that are plain scalars and that the schema takes for strings. -/

/-- Behind a blank, a text that stands for itself is a plain scalar. -/
theorem PlainScalar.readNode {s : List Char} (h : PlainScalar s) :
    readNode (' ' :: s) = some (.plain s) := by
  obtain ⟨c, cs, rfl, hblank, hind⟩ := h.exists_cons
  have hdrop : (' ' :: c :: cs).dropWhile isBlank = c :: cs := by
    rw [List.dropWhile_cons_of_pos (by decide),
      List.dropWhile_cons_of_neg (by simp [hblank])]
  have hne : ∀ d ∈ indicators, c ≠ d := fun d hd hcd => hind (hcd ▸ hd)
  have hcomment := hne '#' (by decide)
  have hquote := hne '\'' (by decide)
  have hflow := hne '[' (by decide)
  rw [Yaml.readNode, hdrop]
  simp only [if_neg hcomment, if_neg hquote, if_neg hflow]
  exact h.readPlain

/-- What is read of a single-quoted scalar with nothing behind it. -/
theorem readNode_quoted {t : List Char} (s : List Char)
    (h : t.dropWhile isBlank = '\'' :: (escape s ++ ['\''])) :
    readNode t = some (.quoted s) := by
  rw [readNode, h]
  simp [@readQuoted_escape s [] nofun, isTrailer]

/-- A sequence in brackets is not a scalar. -/
theorem readFlow_eq_seq {t : List Char} {n : Node} (h : readFlow t = some n) :
    ∃ items, n = .seq items := by
  unfold readFlow at h
  split at h
  next => cases h
  next =>
    obtain ⟨-, h⟩ := Option.ite_none_right_eq_some.mp h
    obtain ⟨items, -, rfl⟩ := Option.map_eq_some_iff.mp h
    exact ⟨items, rfl⟩

/-- **What a node was read from.** For a proof about what a document can mean
this takes the place of the definition. -/
theorem readNode_cases {t : List Char} {n : Node} (h : readNode t = some n) :
    n = .missing ∨ (∃ items, n = .seq items)
      ∨ (∃ s rest, n = .quoted s ∧
        t.dropWhile isBlank = '\'' :: (escape s ++ '\'' :: rest))
      ∨ ∃ s, n = .plain s ∧
        readPlain (t.dropWhile isBlank) = some (.plain s) := by
  rw [readNode] at h
  split at h
  next => exact .inl (Option.some.inj h).symm
  next c cs hdrop =>
    rw [hdrop]
    split_ifs at h with hcomment hquote hflow
    · exact .inl (Option.some.inj h).symm
    · subst hquote
      split at h
      next => cases h
      next s rest hread =>
        obtain ⟨-, hs⟩ := Option.ite_none_right_eq_some.mp h
        refine .inr (.inr (.inl ⟨s, rest, (Option.some.inj hs).symm, ?_⟩))
        rw [(readQuoted_eq_some_iff.mp hread).1]
    · exact .inr (.inl (readFlow_eq_seq h))
    · have hplain := h
      simp only [readPlain, Option.ite_none_right_eq_some] at hplain
      obtain rfl := Option.some.inj hplain.2
      exact .inr (.inr (.inr ⟨_, rfl, h⟩))

/-- A string that is read comes from a single-quoted scalar or a plain one. -/
theorem readNode_eq_str {isString : List Char → Bool}
    {t s : List Char} {n : Node}
    (h : readNode t = some n) (hs : n.value isString = .str s) :
    (∃ rest, t.dropWhile isBlank = '\'' :: (escape s ++ '\'' :: rest))
      ∨ readPlain (t.dropWhile isBlank) = some (.plain s) ∧
      isString s = true := by
  rcases readNode_cases h with rfl | ⟨items, rfl⟩ | ⟨s', rest, rfl,
    hquoted⟩ | ⟨s', rfl, hplain⟩
  · cases hs
  · cases hs
  · obtain rfl := Value.str.inj hs
    exact .inl ⟨rest, hquoted⟩
  · rw [Node.value] at hs
    split at hs
    next hstr =>
      obtain rfl := Value.str.inj hs
      exact .inr ⟨hplain, hstr⟩
    next => cases hs

/-- A string that is read is made of characters that stand there. -/
theorem subset_of_readNode {isString : List Char → Bool}
    {t s : List Char} {n : Node}
    (h : readNode t = some n) (hs : n.value isString = .str s) : s ⊆ t := by
  intro c hc
  refine (List.dropWhile_suffix isBlank).subset ?_
  rcases readNode_eq_str h hs with ⟨rest, hquoted⟩ | ⟨hplain, -⟩
  · rw [hquoted]
    simp [mem_escape, hc]
  · refine (isPrefix_cutComment false _).subset
      ((List.rdropWhile_prefix isBlank _).subset ?_)
    rw [← (plainScalar_of_readPlain hplain).2]
    exact hc

/-- What stands behind a colon is read as a string. -/
def Reads (isString : List Char → Bool) (t s : List Char) : Prop :=
  ∃ n, readNode t = some n ∧ n.value isString = .str s

/-- **The strings that may stand unquoted behind a blank** are the plain
scalars that the schema takes for strings. A text that begins with a quote or
a bracket is never among them, since it is read as something else. -/
theorem reads_cons_blank_iff {isString : List Char → Bool} {s : List Char} :
    Reads isString (' ' :: s) s ↔ PlainScalar s ∧ isString s = true := by
  constructor
  · rintro ⟨n, h, hs⟩
    have hdrop : (' ' :: s).dropWhile isBlank = s.dropWhile isBlank := rfl
    have hsuffix := (List.dropWhile_suffix isBlank (l := s)).length_le
    rcases readNode_eq_str h hs with ⟨rest, hquoted⟩ | ⟨hplain, hstr⟩
    · -- the quotes make the text longer than what is read of it
      have hlen := congrArg List.length hquoted
      have hescape := length_le_length_escape s
      simp only [hdrop, List.length_cons, List.length_append] at hlen
      omega
    · exact ⟨(plainScalar_of_readPlain hplain).1, hstr⟩
  · rintro ⟨hs, hstr⟩
    exact ⟨.plain s, hs.readNode, if_pos hstr⟩

end Yaml
