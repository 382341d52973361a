import Mathlib.Data.List.TakeWhile
import WebcamStreamer.ArgumentVector
import WebcamStreamer.Process

/-!
# The command lines of the child processes

Windows passes one string to a new process, and the process splits it again.
The supervisor joins the executable and the arguments with `BuildCommandLine`,
of which there are two copies: one for the processes it keeps running, one for
the commands whose output it reads.

Strings are wide: lists of UTF-16 code units, where a lone surrogate is a unit
like any other.

A process is free in how it reads two marks in a row inside of an argument,
and two readings are in use; the results hold for either of them, because a
mark inside of an argument is always written with a backslash in front, and
one that closes an argument has a blank or the end behind it. The program is
read without escapes, and for its path it has to be known that it has no mark
in it and does not end with a backslash.
-/

namespace WebcamStreamer

open ArgumentVector

/-- `std::wstring`. -/
abbrev WString := List UInt16

/-- The characters that `Quote` and the reader of a command line treat in a
special way. -/
def wmarks : Marks UInt16 where
  isBlank c := c == 0x20 || c == 0x09
  quote := 0x22
  slash := 0x5C
  quote_ne_slash := by decide
  isBlank_quote := by decide
  isBlank_slash := by decide

/-- The argument vector that `CommandLineToArgvW` makes of the text of a buffer,
which ends at the first NUL. No line that is read here is empty, so that it
names the running executable then does not matter. -/
def commandLineToArgvW (doubled : Doubled) (buffer : WString) : List WString :=
  argumentVector wmarks doubled (buffer.takeWhile (· ≠ 0))

/-! ## Writing

There are two copies of the same code in the source, one for the processes
that are kept running and one for the commands that are run to their end. Both
quote an argument if it is empty or has a blank or a mark, and double the
backslashes in front of a mark. -/

/-- The loop of `Quote` and the mark behind it; `bs` counts the backslashes not
written yet. -/
def quoteLoop : ℕ → WString → WString
  | bs, [] => List.replicate (2 * bs) wmarks.slash ++ [wmarks.quote]
  | bs, c :: cs =>
    if c = wmarks.slash then quoteLoop (bs + 1) cs
    else if c = wmarks.quote then
      List.replicate (2 * bs + 1) wmarks.slash ++ wmarks.quote :: quoteLoop 0 cs
    else List.replicate bs wmarks.slash ++ c :: quoteLoop 0 cs

/-- An argument that has to be quoted: it is empty, or it has a blank or a
mark. -/
def needsQuotes (s : WString) : Bool :=
  s.isEmpty || s.any (fun c => wmarks.isBlank c || c == wmarks.quote)

/-- The body of both `Quote`s. -/
def quoteArgument (s : WString) : WString :=
  if needsQuotes s = true then wmarks.quote :: quoteLoop 0 s else s

/-- The body of both `BuildCommandLine`s. -/
def joinArguments (exe : WString) (args : List WString) : WString :=
  args.foldl (fun cmd a => cmd ++ [0x20] ++ quoteArgument a) (quoteArgument exe)

namespace ProcessSupervisor

/-- `Quote` of the supervised processes. -/
def quote : WString → WString := quoteArgument

/-- `BuildCommandLine` of the supervised processes. -/
def buildCommandLine : WString → List WString → WString := joinArguments

end ProcessSupervisor

namespace RunCommand

/-- `Quote` of the commands that are run to their end. -/
def quote : WString → WString := quoteArgument

/-- `BuildCommandLine` of the commands that are run to their end. -/
def buildCommandLine : WString → List WString → WString := joinArguments

end RunCommand

/-! ## Reading what was written

The proof follows the loop of the writer with a state of the reader: inside of
an argument, with the backslashes that the loop has counted but not written.
What ends the argument may be anything, so that the lemma about one argument
can be used for all of them in turn. -/

theorem not_needsQuotes_iff {s : WString} :
    ¬ needsQuotes s = true ↔
      s ≠ [] ∧ ∀ c ∈ s, wmarks.isBlank c = false ∧ c ≠ wmarks.quote := by
  simp [needsQuotes]

/-- **The loop is read back**: from inside an argument, what it writes for `s`
with `bs` backslashes held back is these backslashes, then `s`, then the end of
the quotation. -/
theorem scan_quoteLoop (doubled : Doubled) (bs : ℕ) (s arg rest : WString) :
    scan wmarks doubled .inside 0 (some arg) (quoteLoop bs s ++ rest)
      = scan wmarks doubled .closed 0
          (some (arg ++ List.replicate bs wmarks.slash ++ s)) rest := by
  induction s generalizing bs arg with
  | nil =>
    rw [quoteLoop, List.append_assoc, List.singleton_append, scan_quote_even,
      List.append_nil]
  | cons c cs ih =>
    rw [quoteLoop]
    by_cases hslash : c = wmarks.slash
    · rw [if_pos hslash, ih, List.replicate_succ', hslash]
      simp
    · rw [if_neg hslash]
      by_cases hquote : c = wmarks.quote
      · rw [if_pos hquote, List.append_assoc, List.cons_append,
          scan_quote_odd, ih, hquote]
        simp
      · rw [if_neg hquote, List.append_assoc, List.cons_append,
          scan_inside_other hslash hquote,
          ih]
        simp

/-- **One argument is read back**, whatever ends it. Quoting doubles the
backslashes in front of a quote and at the end, and the scanner halves them
again, in either reading of a doubled quote. -/
theorem scan_quoteArgument (doubled : Doubled) (s : WString) {rest : WString}
    (h : Ends wmarks rest) :
    scan wmarks doubled .outside 0 none (quoteArgument s ++ rest)
      = s :: scan wmarks doubled .outside 0 none rest := by
  unfold quoteArgument
  by_cases hq : needsQuotes s = true
  · rw [if_pos hq, List.cons_append, scan_open, scan_quoteLoop,
      scan_ends (by simp) 0 _ h]
    simp
  · obtain ⟨hne, hs⟩ := not_needsQuotes_iff.mp hq
    obtain ⟨c, cs, rfl⟩ := List.exists_cons_of_ne_nil hne
    rw [if_neg hq, List.cons_append,
      scan_first (hs c List.mem_cons_self).1, ← List.cons_append,
      scan_word hs 0 [] h]
    simp

/-- The arguments behind the executable. -/
def argumentText (args : List WString) : WString :=
  args.flatMap (fun a => 0x20 :: quoteArgument a)

theorem joinArguments_eq (exe : WString) (args : List WString) :
    joinArguments exe args = quoteArgument exe ++ argumentText args := by
  unfold joinArguments argumentText
  generalize quoteArgument exe = cmd
  induction args generalizing cmd with
  | nil => simp
  | cons a args ih =>
    rw [List.foldl_cons, ih]
    simp

theorem ends_argumentText (args : List WString) :
    Ends wmarks (argumentText args) := by
  cases args with
  | nil => exact fun c hc => absurd hc (by simp [argumentText])
  | cons a args =>
    rintro c hc
    obtain rfl : 0x20 = c := Option.some.inj hc
    rfl

theorem scan_argumentText (doubled : Doubled) (args : List WString) :
    scan wmarks doubled .outside 0 none (argumentText args) = args := by
  induction args with
  | nil => rfl
  | cons a args ih =>
    show scan wmarks doubled .outside 0 none
      (0x20 :: (quoteArgument a ++ argumentText args)) = a :: args
    rw [scan_blank (by simp) _ _ (by decide),
      scan_quoteArgument doubled a (ends_argumentText args),
      ih]
    rfl

/-- A path as Windows has it: no quotation mark, no NUL, and no backslash at the
end. -/
structure IsFilePath (path : WString) : Prop where
  quote_notMem : wmarks.quote ∉ path
  nul_notMem : 0 ∉ path
  getLast_ne : path.getLast? ≠ some wmarks.slash

/-- Without a mark, and with something behind every backslash, the loop changes
nothing. -/
theorem quoteLoop_eq {s : WString} (hq : wmarks.quote ∉ s)
    (hlast : s.getLast? ≠ some wmarks.slash) {bs : ℕ} (hbs : s = [] → bs = 0) :
    quoteLoop bs s = List.replicate bs wmarks.slash ++ s ++ [wmarks.quote] := by
  induction s generalizing bs with
  | nil => simp [quoteLoop, hbs rfl]
  | cons c cs ih =>
    have hcs : cs.getLast? ≠ some wmarks.slash := by
      cases cs with
      | nil => simp
      | cons d ds => simpa using hlast
    have htail := @ih (fun h => hq (List.mem_cons_of_mem c h)) hcs
    have hquote : ¬ c = wmarks.quote := fun h => hq (h ▸ List.mem_cons_self)
    rw [quoteLoop]
    by_cases hslash : c = wmarks.slash
    · have hne : cs ≠ [] := by
        rintro rfl
        exact hlast (congrArg some hslash)
      rw [if_pos hslash, htail (fun h => absurd h hne),
        List.replicate_succ', hslash]
      simp
    · rw [if_neg hslash, if_neg hquote, htail (fun _ => rfl)]
      simp

/-- The executable is read back by the rules for the program name. -/
theorem splitProgram_quoteArgument {exe : WString} (h : IsFilePath exe)
    {rest : WString}
    (hr : Ends wmarks rest) :
    splitProgram wmarks (quoteArgument exe ++ rest) = (exe, rest) := by
  unfold quoteArgument
  by_cases hq : needsQuotes exe = true
  · rw [if_pos hq, quoteLoop_eq h.quote_notMem h.getLast_ne (fun _ => rfl)]
    simpa using splitProgram_quoted h.quote_notMem rest
  · obtain ⟨hne, hs⟩ := not_needsQuotes_iff.mp hq
    obtain ⟨c, cs, rfl⟩ := List.exists_cons_of_ne_nil hne
    rw [if_neg hq]
    exact splitProgram_plain (hs c List.mem_cons_self).2
      (fun d hd => (hs d hd).1) hr

/-! ### The end of the buffer

The buffer that is handed over ends at the first NUL, and so would an argument
with a NUL in it. No argument that is written adds one, and where the
configuration has none the whole line is read. -/

theorem nul_notMem_quoteLoop {s : WString} (h : 0 ∉ s) (bs : ℕ) :
    0 ∉ quoteLoop bs s := by
  have hslash : (0 : UInt16) ≠ wmarks.slash := by decide
  have hquote : (0 : UInt16) ≠ wmarks.quote := by decide
  induction s generalizing bs with
  | nil => simp [quoteLoop, hslash, hquote]
  | cons c cs ih =>
    have hc : (0 : UInt16) ≠ c := fun heq => h (heq ▸ List.mem_cons_self)
    have htail := ih (fun hmem => h (List.mem_cons_of_mem c hmem))
    rw [quoteLoop]
    split
    next => exact htail _
    next =>
      split
      next => simp [hslash, hquote, htail 0]
      next => simp [hslash, hc, htail 0]

theorem nul_notMem_quoteArgument {s : WString} (h : 0 ∉ s) :
    0 ∉ quoteArgument s := by
  unfold quoteArgument
  split
  next =>
    exact List.not_mem_cons_of_ne_of_not_mem (by decide)
      (nul_notMem_quoteLoop h 0)
  next => exact h

theorem nul_notMem_joinArguments {exe : WString} {args : List WString}
    (hexe : 0 ∉ exe)
    (hargs : ∀ a ∈ args, 0 ∉ a) : 0 ∉ joinArguments exe args := by
  rw [joinArguments_eq]
  refine fun hmem =>
    (List.mem_append.mp hmem).elim (nul_notMem_quoteArgument hexe) ?_
  rintro harg
  obtain ⟨a, ha, hc⟩ := List.mem_flatMap.mp harg
  exact List.not_mem_cons_of_ne_of_not_mem (by decide)
    (nul_notMem_quoteArgument (hargs a ha)) hc

theorem commandLineToArgvW_joinArguments (doubled : Doubled) {exe : WString}
    (hexe : IsFilePath exe) {args : List WString} (hargs : ∀ a ∈ args, 0 ∉ a) :
    commandLineToArgvW doubled (joinArguments exe args) = exe :: args := by
  have hnul := nul_notMem_joinArguments hexe.nul_notMem hargs
  have hbuffer : (joinArguments exe args).takeWhile (· ≠ 0)
      = joinArguments exe args :=
    List.takeWhile_eq_self_iff.mpr
      (fun c hc => decide_eq_true (fun h => hnul (h ▸ hc)))
  rw [commandLineToArgvW, hbuffer, joinArguments_eq, argumentVector,
    splitProgram_quoteArgument hexe (ends_argumentText args), scan_argumentText]

/-- **A child gets the arguments it was given**: splitting the command line
gives the executable and the arguments, for both copies of `BuildCommandLine`
and whatever a doubled mark means. The program stands in front without
escapes, and each argument is quoted on its own, so that the proof goes
through the list one argument at a time. -/
theorem argv_buildCommandLine (doubled : Doubled) {exe : WString}
    (hexe : IsFilePath exe)
    {args : List WString} (hargs : ∀ a ∈ args, 0 ∉ a) :
    commandLineToArgvW doubled (ProcessSupervisor.buildCommandLine exe args)
      = exe :: args ∧ commandLineToArgvW doubled
        (RunCommand.buildCommandLine exe args) = exe :: args :=
  ⟨commandLineToArgvW_joinArguments doubled hexe hargs,
    commandLineToArgvW_joinArguments doubled hexe hargs⟩

/-- An executable under a directory with a blank; an empty argument, one that
ends in a backslash behind a blank, and one with a backslash before a mark. -/
theorem argv_buildCommandLine_blanks :
    commandLineToArgvW .opens (ProcessSupervisor.buildCommandLine [0x43, 0x5C,
      0x61, 0x20, 0x62]
        [[], [0x61, 0x20, 0x5C], [0x5C, 0x22]])
      = [[0x43, 0x5C, 0x61, 0x20, 0x62], [], [0x61, 0x20, 0x5C], [0x5C, 0x22]]
    ∧ commandLineToArgvW .opens (RunCommand.buildCommandLine [0x43, 0x5C,
      0x61, 0x20, 0x62]
        [[], [0x61, 0x20, 0x5C], [0x5C, 0x22]])
      = [[0x43, 0x5C, 0x61, 0x20, 0x62], [], [0x61, 0x20, 0x5C],
        [0x5C, 0x22]] :=
  argv_buildCommandLine .opens ⟨by decide, by decide, by decide⟩ (by decide)

/-! ## The command line of a supervised process

The configuration has its strings in UTF-8, and they are converted before they
are joined. The conversion makes a mark, a backslash or a NUL only out of that
character itself, so that the conditions can be stated about the strings that
the program was configured with. -/

/-- The UTF-16 code units of a character. -/
def utf16 (c : Char) : WString :=
  if c.toNat < 0x10000 then [UInt16.ofNat c.toNat]
  else [UInt16.ofNat (0xD800 + (c.toNat - 0x10000) / 0x400),
    UInt16.ofNat (0xDC00 + (c.toNat - 0x10000) % 0x400)]

theorem utf16_ne_nil (c : Char) : utf16 c ≠ [] := by
  unfold utf16
  split <;> exact List.cons_ne_nil _ _

/-- A string as wide string. -/
def wide (s : String) : WString := s.toList.flatMap utf16

/-- The command line `Start` passes to `CreateProcessW`. -/
def ProcessConfig.commandLine (cfg : ProcessConfig) : WString :=
  ProcessSupervisor.buildCommandLine (wide cfg.exePath) (cfg.args.map wide)

/-- An ASCII unit comes from the ASCII character only. -/
theorem eq_of_mem_utf16 {c d : Char} (hd : d.toNat < 0x80)
    (h : UInt16.ofNat d.toNat ∈ utf16 c) : c = d := by
  have hc : c.toNat < 0x110000 := by
    rcases c.valid with h | h
    · exact Nat.lt_trans h (by decide)
    · exact h.2
  have hunit : ∀ n < 0x10000, UInt16.ofNat d.toNat = UInt16.ofNat n →
      d.toNat = n := by
    intro n hn heq
    have hmod := congrArg UInt16.toNat heq
    rw [UInt16.toNat_ofNat', UInt16.toNat_ofNat'] at hmod
    omega
  unfold utf16 at h
  split at h
  next hsmall =>
    have heq := hunit _ hsmall (List.mem_singleton.mp h)
    exact Char.toNat_inj.mp heq.symm
  next =>
    simp only [List.mem_cons, List.not_mem_nil, or_false] at h
    rcases h with h | h
    · have := hunit _ (by omega) h
      omega
    · have := hunit _ (by omega) h
      omega

theorem notMem_wide {s : String} {d : Char} (hd : d.toNat < 0x80)
    (h : d ∉ s.toList) :
    UInt16.ofNat d.toNat ∉ wide s := by
  intro hmem
  obtain ⟨c, hc, hunit⟩ := List.mem_flatMap.mp hmem
  exact h (eq_of_mem_utf16 hd hunit ▸ hc)

theorem isFilePath_wide {s : String} (hquote : '"' ∉ s.toList)
    (hnul : Char.ofNat 0 ∉ s.toList)
    (hlast : s.toList.getLast? ≠ some '\\') : IsFilePath (wide s) where
  quote_notMem := notMem_wide (by decide) hquote
  nul_notMem := notMem_wide (by decide) hnul
  getLast_ne := by
    intro h
    rcases List.eq_nil_or_concat s.toList with hnil | ⟨front, c, hs⟩
    · rw [wide, hnil] at h
      cases h
    · -- The last unit is one of the last character.
      rw [wide, hs, List.concat_eq_append, List.flatMap_append,
        List.flatMap_singleton,
        List.getLast?_append_of_ne_nil _ (utf16_ne_nil c)] at h
      have hslash : UInt16.ofNat '\\'.toNat ∈ utf16 c := List.mem_of_getLast? h
      rw [hs, List.concat_eq_append, List.getLast?_concat,
        eq_of_mem_utf16 (by decide) hslash]
        at hlast
      exact hlast rfl

/-- **A supervised process gets its arguments** as they stand in its
configuration. The hypotheses are about the path of the program, which is
quoted without escapes, and about zero characters, at which a command line
ends. -/
theorem argv_commandLine (doubled : Doubled) {cfg : ProcessConfig}
    (hquote : '"' ∉ cfg.exePath.toList)
    (hlast : cfg.exePath.toList.getLast? ≠ some '\\')
    (hnul : ∀ s ∈ cfg.exePath :: cfg.args, Char.ofNat 0 ∉ s.toList) :
    commandLineToArgvW doubled cfg.commandLine
      = (cfg.exePath :: cfg.args).map wide := by
  obtain ⟨hexe, hargs⟩ := List.forall_mem_cons.mp hnul
  refine commandLineToArgvW_joinArguments doubled
    (isFilePath_wide hquote hexe hlast) ?_
  rintro a ha
  obtain ⟨s, hs, rfl⟩ := List.mem_map.mp ha
  exact notMem_wide (by decide) (hargs s hs)

end WebcamStreamer
