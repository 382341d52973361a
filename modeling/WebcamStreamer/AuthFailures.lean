import Mathlib.Data.List.Infix
import WebcamStreamer.CameraFormats

/-!
# Failed logins

MediaMTX writes a line to its standard output when a viewer fails to log in,
with the address and the port that the viewer came from. The supervisor looks
for such lines with a regular expression and publishes an event.

An address and a port are written with a colon between them, and an IPv6 address
with brackets around it and colons inside. The group that is to match the
address stops at the first colon or bracket. So an IPv4 address is noticed,
unless the line has such a message of another address in front, and an IPv6
address never is (`noticed_iff`).
-/

namespace WebcamStreamer

/-! ## Addresses

The address that MediaMTX prints is that of the peer as the Go library writes
it. All forms of it are described here, the IPv6 ones with and without a zone,
because what is noticed depends on the form and not only on whether the login
failed. -/

/-- An IPv4 address. -/
structure Ipv4 where
  a : Fin 256
  b : Fin 256
  c : Fin 256
  d : Fin 256

def Ipv4.text (ip : Ipv4) : Text :=
  Nat.toDigits 10 ip.a ++ '.'
    :: (Nat.toDigits 10 ip.b ++ '.' :: (Nat.toDigits 10 ip.c
    ++ '.' :: Nat.toDigits 10 ip.d))

/-- One to four hexadecimal digits. -/
def IsGroup (g : Text) : Prop :=
  (1 ≤ g.length ∧ g.length ≤ 4) ∧ ∀ c ∈ g,
    c.isDigit ∨ c.toLower ∈ ['a', 'b', 'c', 'd', 'e', 'f']

/-- Groups with colons between them. -/
def colonGroups : List Text → Text
  | [] => []
  | g :: gs => g ++ gs.flatMap (':' :: ·)

/-- **An IPv6 address**: eight groups, or fewer and two colons for the zeros
between them. The last two groups can be written as an IPv4 address. -/
inductive IsIpv6 : Text → Prop where
  | full {gs : List Text} (hgs : ∀ g ∈ gs, IsGroup g) (hlen : gs.length = 8) :
      IsIpv6 (colonGroups gs)
  | compressed {ls rs : List Text} (hls : ∀ g ∈ ls, IsGroup g)
      (hrs : ∀ g ∈ rs, IsGroup g)
      (hlen : ls.length + rs.length ≤ 7) :
      IsIpv6 (colonGroups ls ++ ':' :: ':' :: colonGroups rs)
  | fullIpv4 {gs : List Text} (ip : Ipv4) (hgs : ∀ g ∈ gs, IsGroup g)
      (hlen : gs.length = 6) :
      IsIpv6 (colonGroups (gs ++ [ip.text]))
  | compressedIpv4 {ls rs : List Text} (ip : Ipv4) (hls : ∀ g ∈ ls, IsGroup g)
      (hrs : ∀ g ∈ rs, IsGroup g) (hlen : ls.length + rs.length ≤ 5) :
      IsIpv6 (colonGroups ls ++ ':' :: ':' :: colonGroups (rs ++ [ip.text]))

/-- A zone of an IPv6 address: the name of an interface. -/
structure Zone where
  name : Text
  bracket_notMem : ']' ∉ name

/-- The address a connection comes from. -/
inductive Host where
  | v4 (ip : Ipv4)
  | v6 (ip : Text) (h : IsIpv6 ip) (zone : Option Zone)

/-- The address. -/
def Host.address : Host → Text
  | .v4 ip => ip.text
  | .v6 ip _ none => ip
  | .v6 ip _ (some zone) => ip ++ '%' :: zone.name

/-- The address in front of a port. -/
def Host.printed : Host → Text
  | .v4 ip => ip.text
  | .v6 ip h zone => '[' :: ((Host.v6 ip h zone).address ++ [']'])

/-- The address has four numbers. -/
def Host.IsV4 : Host → Prop
  | .v4 _ => True
  | .v6 _ _ _ => False

/-! ## The scraper

The expression is matched by hand, part after part, as it stands in the
source. The group takes as many characters as there are without a colon and a
closing bracket, and nothing it takes is ever given back, since a colon has to
follow. -/

/-- The line of a failed login, with whatever stands before and behind the
message. -/
def authFailLine (pre : Text) (host : Host) (port : ℕ) (post : Text) : Text :=
  pre ++ ("[RTSP] [conn ".toList
    ++ (host.printed ++ ':' :: (Nat.toDigits 10 port
    ++ ("] closed: authentication failed".toList ++ post))))

/-- `[^:\]]` -/
def isHostChar (c : Char) : Bool := c != ':' && c != ']'

/-- `authFailRe`,
`\[RTSP\] \[conn ([^:\]]+):\d+\] closed: authentication failed`, and its
group. -/
def authFailRe (t : Text) : Option Text := do
  let t ← afterPrefix "[RTSP] [conn ".toList t
  let (host, t) ← takeRun isHostChar t
  let t ← afterPrefix [':'] t
  let (_, t) ← takeRun Char.isDigit t
  let _ ← afterPrefix "] closed: authentication failed".toList t
  return host

/-- The event `viewer-auth-failed`. -/
structure ViewerAuthFailed where
  readerIp : String
  reason : String
  deriving DecidableEq

/-- The `on_stdout_line` of MediaMTX: what it publishes for a line, where `ipc`
says that `ipc_ptr` is set. -/
def mtxStdoutLine (ipc : Bool) (line : Text) : List ViewerAuthFailed :=
  if ipc then
    match regexSearch authFailRe line with
    | some host =>
      [{ readerIp := String.ofList host, reason := "authentication failed" }]
    | none => []
  else []

/-- **The failure is noticed**: one event is published, with the address, be
it in its brackets or not. The log prints an IPv6 address in brackets, and the
statement leaves open which of the two spellings the event has. -/
def Noticed (events : List ViewerAuthFailed) (host : Host) : Prop :=
  ∃ e, events = [e] ∧ (e.readerIp = String.ofList host.address
    ∨ e.readerIp = String.ofList host.printed)

/-! ## What stands in front

A line may hold more than the message: MediaMTX puts the time in front, and
other text can follow. The search finds the leftmost match, and the lemmas of
this section say that no match can begin in front of a message and end inside
it. -/

/-- The port, and what closes the message. -/
def authFailPort (t : Text) : Option Text := do
  let (_, t) ← takeRun Char.isDigit t
  afterPrefix "] closed: authentication failed".toList t

/-- The expression behind its words: the group, and the port. -/
def authFailGroup (t : Text) : Option Text := do
  let (host, t) ← takeRun isHostChar t
  let t ← afterPrefix [':'] t
  (authFailPort t).map (fun _ => host)

theorem authFailRe_eq (t : Text) :
    authFailRe t
      = (afterPrefix "[RTSP] [conn ".toList t).bind authFailGroup := by
  unfold authFailRe authFailGroup authFailPort
  cases afterPrefix "[RTSP] [conn ".toList t with
  | none => rfl
  | some t =>
    simp only [Option.bind_eq_bind, Option.bind_some]
    cases takeRun isHostChar t with
    | none => rfl
    | some p =>
      simp only [Option.bind_some]
      cases afterPrefix [':'] p.2 with
      | none => rfl
      | some t =>
        simp only [Option.bind_some]
        cases takeRun Char.isDigit t with
        | none => rfl
        | some q =>
          simp only [Option.bind_some]
          cases afterPrefix "] closed: authentication failed".toList q.2 <;> rfl

/-- A port does not end in a bracket that opens. -/
theorem authFailPort_append (r s : Text) :
    (authFailPort (r ++ '[' :: s)).isSome = (authFailPort r).isSome := by
  unfold authFailPort
  by_cases hall : ∀ c ∈ r, c.isDigit = true
  · have hopen : ∀ t : Text,
        afterPrefix "] closed: authentication failed".toList ('[' :: t)
        = none := fun _ => rfl
    rw [takeRun_append_of_forall hall, takeRun_of_forall hall,
      List.takeWhile_cons_of_neg (by decide),
      List.dropWhile_cons_of_neg (by decide),
      List.append_nil]
    split
    · rfl
    · simp only [Option.bind_eq_bind, Option.bind_some, hopen]
      rfl
  · rw [takeRun_append_of_exists (exists_of_not_forall hall)]
    cases takeRun Char.isDigit r with
    | none => rfl
    | some p =>
      simp only [Option.map_some, Option.bind_eq_bind, Option.bind_some]
      rw [afterPrefix_append_of_not (fun b hb heq hstart => ?_),
        Option.isSome_map]
      obtain ⟨c, b, rfl⟩ := List.exists_cons_of_ne_nil hb
      obtain rfl : c = '[' := (List.cons_prefix_cons.mp hstart).1
      have hmem : '[' ∈ "] closed: authentication failed".toList :=
        heq ▸ by simp
      exact absurd hmem (by decide)

/-- Nor does a group go beyond the first bracket of another message. -/
theorem authFailGroup_append (r s : Text) :
    authFailGroup (r ++ ("[RTSP] ".toList ++ s)) = authFailGroup r := by
  unfold authFailGroup
  by_cases hall : ∀ c ∈ r, isHostChar c = true
  · have htake : ("[RTSP] ".toList ++ s).takeWhile isHostChar
        = "[RTSP".toList := rfl
    have hdrop : ("[RTSP] ".toList ++ s).dropWhile isHostChar
        = ']' :: ' ' :: s := rfl
    have hne : r ++ "[RTSP".toList ≠ [] :=
      List.append_ne_nil_of_right_ne_nil _ (by decide)
    have hcolon : afterPrefix [':'] (']' :: ' ' :: s) = none := rfl
    rw [takeRun_append_of_forall hall, takeRun_of_forall hall, htake,
      hdrop, if_neg hne]
    simp only [Option.bind_eq_bind, Option.bind_some, hcolon]
    split <;> rfl
  · have hexists := exists_of_not_forall hall
    rw [takeRun_append_of_exists hexists]
    cases hrun : takeRun isHostChar r with
    | none => rfl
    | some p =>
      obtain ⟨c, rest, hrest⟩ :=
        List.exists_cons_of_ne_nil (takeRun_some_ne_nil hexists hrun)
      simp only [Option.map_some, Option.bind_eq_bind, Option.bind_some]
      have hcolon : afterPrefix [':'] (p.2 ++ ("[RTSP] ".toList ++ s))
          = (afterPrefix [':'] p.2).map (· ++ ("[RTSP] ".toList ++ s)) := by
        refine afterPrefix_append_of_not (fun b hb heq => ?_)
        rw [hrest] at heq
        have hnil := (List.cons.inj heq).2
        exact absurd (List.append_eq_nil_iff.mp hnil.symm).2 hb
      rw [hcolon]
      cases afterPrefix [':'] p.2 with
      | none => rfl
      | some t =>
        have hport := authFailPort_append t ("RTSP] ".toList ++ s)
        simp only [Option.map_some, Option.bind_some]
        change (authFailPort (t ++ ("[RTSP] ".toList ++ s))).isSome = _ at hport
        cases h : authFailPort (t ++ ("[RTSP] ".toList ++ s)) <;>
          cases h' : authFailPort t <;>
          rw [h, h'] at hport <;> first | rfl | cases hport

/-- **No match goes on into a message**: what is matched in front of one is
matched there already. The words have no end that they begin with, and an
address that reaches into the message stops at the bracket of its `[RTSP]`,
where a colon would have to stand. -/
theorem authFailRe_append {t : Text} (ht : t ≠ []) (s : Text) :
    authFailRe (t ++ ("[RTSP] [conn ".toList ++ s)) = authFailRe t := by
  have hwords :
      afterPrefix "[RTSP] [conn ".toList (t ++ ("[RTSP] [conn ".toList ++ s))
      = (afterPrefix "[RTSP] [conn ".toList t).map
        (· ++ ("[RTSP] [conn ".toList ++ s)) := by
    refine afterPrefix_append_of_not (fun b hb heq hstart => ?_)
    -- the words have no end that they begin with
    have hborder : ∀ b ∈ "[RTSP] [conn ".toList.tails, b ≠ [] →
        b ≠ "[RTSP] [conn ".toList →
        ¬ b <+: "[RTSP] [conn ".toList := by
      decide
    have hsuffix : b <:+ "[RTSP] [conn ".toList := heq ▸ List.suffix_append t b
    refine hborder b ((List.mem_tails _ _).mpr hsuffix) hb
      (fun hall => ht ?_) ?_
    · have hlen := congrArg List.length (hall ▸ heq)
      rw [List.length_append] at hlen
      exact List.length_eq_zero_iff.mp (by omega)
    · exact List.prefix_of_prefix_length_le hstart
        (List.prefix_append _ s) hsuffix.length_le
  rw [authFailRe_eq, authFailRe_eq, hwords]
  cases afterPrefix "[RTSP] [conn ".toList t with
  | none => rfl
  | some r => exact authFailGroup_append r ("[conn ".toList ++ s)

/-- What is found on a line: a message in front, or else what begins with the
message. -/
theorem regexSearch_message (pre s : Text) :
    regexSearch authFailRe (pre ++ ("[RTSP] [conn ".toList ++ s))
      = (regexSearch authFailRe pre).or
          (regexSearch authFailRe ("[RTSP] [conn ".toList ++ s)) := by
  induction pre with
  | nil => rfl
  | cons c pre ih =>
    have hhere := authFailRe_append (List.cons_ne_nil c pre) s
    rw [List.cons_append] at hhere
    rw [List.cons_append, regexSearch, hhere, ih, ← Option.or_assoc]
    rfl

/-! ## The message

What is left is the message itself, for the two kinds of addresses. An IPv4
address goes through the group as it is. No group has a colon in it, and an IPv6
address has one however it is written, so that none is ever in the group. -/

theorem isHostChar_of_mem_ipv4 {ip : Ipv4} {c : Char} (h : c ∈ ip.text) :
    isHostChar c = true := by
  have hdigit : ∀ n, c ∈ Nat.toDigits 10 n → isHostChar c = true := by
    intro n hc
    have hd := Nat.isDigit_of_mem_toDigits (by omega) (by omega) hc
    by_contra hno
    have hor : c = ':' ∨ c = ']' := by
      by_contra hne
      obtain ⟨h1, h2⟩ := not_or.mp hne
      simp [isHostChar, h1, h2] at hno
    rcases hor with rfl | rfl <;> cases hd
  simp only [Ipv4.text, List.mem_append, List.mem_cons] at h
  rcases h with h | rfl | h | rfl | h | rfl | h
  · exact hdigit _ h
  · rfl
  · exact hdigit _ h
  · rfl
  · exact hdigit _ h
  · rfl
  · exact hdigit _ h

/-- **A message with an IPv4 address** is matched, with the address in the
group. An IPv4 address has no colon, so that the group, which stops at the
first colon, is the whole of it. -/
theorem authFailRe_ipv4 (ip : Ipv4) (port : ℕ) (post : Text) :
    authFailRe ("[RTSP] [conn ".toList
      ++ (ip.text ++ ':' :: (Nat.toDigits 10 port
      ++ ("] closed: authentication failed".toList ++ post))))
      = some ip.text := by
  have hne : ip.text ≠ [] :=
    List.append_ne_nil_of_left_ne_nil Nat.toDigits_ne_nil _
  have hcolon : ∀ t, afterPrefix [':'] (':' :: t) = some t :=
    afterPrefix_append [':']
  have hclose : ∀ t, "] closed: authentication failed".toList ++ t
      = ']' :: (" closed: authentication failed".toList ++ t) := fun _ => rfl
  unfold authFailRe
  rw [afterPrefix_append]
  simp only [Option.bind_eq_bind, Option.bind_some]
  rw [takeRun_append hne (fun c => isHostChar_of_mem_ipv4) rfl]
  simp only [Option.bind_some, hcolon]
  rw [hclose, takeRun_append Nat.toDigits_ne_nil
    (fun c hc => Nat.isDigit_of_mem_toDigits (by omega) (by omega) hc) rfl]
  simp only [Option.bind_some]
  rw [← hclose, afterPrefix_append]
  rfl

/-- The group has no colon. -/
theorem colon_notMem_of_regexSearch {line host : Text}
    (h : regexSearch authFailRe line = some host) : ':' ∉ host := by
  obtain ⟨t, -, hmatch⟩ := regexSearch_some h
  rw [authFailRe_eq] at hmatch
  obtain ⟨t, -, hgroup⟩ := Option.bind_eq_some_iff.mp hmatch
  obtain ⟨p, hrun, hgroup⟩ := Option.bind_eq_some_iff.mp hgroup
  obtain ⟨t, -, hport⟩ := Option.bind_eq_some_iff.mp hgroup
  obtain ⟨q, -, rfl⟩ := Option.map_eq_some_iff.mp hport
  intro hmem
  exact absurd ((takeRun_some hrun).2 _ hmem) (by decide)

theorem colon_mem_colonGroups {gs : List Text} (h : 2 ≤ gs.length) :
    ':' ∈ colonGroups gs := by
  match gs, h with
  | g :: g' :: gs, _ => simp [colonGroups]

/-- An IPv6 address has colons. -/
theorem IsIpv6.colon_mem {ip : Text} (h : IsIpv6 ip) : ':' ∈ ip := by
  cases h with
  | full hgs hlen => exact colon_mem_colonGroups (by omega)
  | compressed => simp
  | fullIpv4 ip hgs hlen =>
    exact colon_mem_colonGroups
      (by rw [List.length_append, hlen, List.length_singleton]; decide)
  | compressedIpv4 => simp

theorem colon_mem_address {ip : Text} (h : IsIpv6 ip) (zone : Option Zone) :
    ':' ∈ (Host.v6 ip h zone).address ∧ ':' ∈ (Host.v6 ip h zone).printed := by
  have hmem : ':' ∈ (Host.v6 ip h zone).address := by
    cases zone with
    | none => exact h.colon_mem
    | some zone => exact List.mem_append_left _ h.colon_mem
  exact ⟨hmem, List.mem_cons_of_mem _ (List.mem_append_left _ hmem)⟩

/-! ## What is noticed

The three conditions of the equivalence are read off the two sections before:
somebody has to be there to be told, the group has to fit the address, which
only an IPv4 address allows, and no other message may be found further
left. -/

/-- **A failed login is noticed exactly if** there is a client to tell, the
address is an IPv4 address, and no message of another address stands in front of
it on the line. -/
theorem noticed_iff (ipc : Bool) (pre : Text) (host : Host) (port : ℕ)
    (post : Text) :
    Noticed (mtxStdoutLine ipc (authFailLine pre host port post)) host ↔
      ipc = true ∧ host.IsV4 ∧
        ∀ other, regexSearch authFailRe pre = some other →
          other = host.address := by
  cases ipc with
  | false => simp [Noticed, mtxStdoutLine]
  | true =>
    rw [mtxStdoutLine, if_pos rfl]
    cases host with
    | v4 ip =>
      have hline : regexSearch authFailRe (authFailLine pre (.v4 ip) port post)
          = (regexSearch authFailRe pre).or (some ip.text) := by
        rw [authFailLine, regexSearch_message, Host.printed,
          regexSearch_of_eq_some (authFailRe_ipv4 ip port post)]
      rw [hline]
      cases hpre : regexSearch authFailRe pre with
      | none => simp [Noticed, Host.address, Host.IsV4]
      | some other =>
        have hsame : String.ofList other = String.ofList ip.text ↔
            other = ip.text :=
          ⟨fun h => String.ofList_injective h,
            fun h => congrArg String.ofList h⟩
        simp [Noticed, Host.address, Host.printed, Host.IsV4, hsame]
    | v6 ip h zone =>
      refine iff_of_false ?_ (fun hno => hno.2.1)
      rintro ⟨e, he, hip⟩
      obtain ⟨haddress, hprinted⟩ := colon_mem_address h zone
      split at he
      next other hother =>
        obtain rfl := (List.cons.inj he).1
        have hno := colon_notMem_of_regexSearch hother
        rcases hip with hip | hip
        · exact hno (String.ofList_injective hip ▸ haddress)
        · exact hno (String.ofList_injective hip ▸ hprinted)
      next => cases he

/-- The address of the machine itself. -/
def loopback : Host :=
  .v6 "::1".toList (@IsIpv6.compressed [] [['1']] (List.forall_mem_nil _)
    (List.forall_mem_singleton.mpr
      ⟨by decide, List.forall_mem_singleton.mpr (.inl rfl)⟩)
    (by decide)) none

/-- A failed login from there is not noticed. -/
theorem noticed_loopback_false :
    ¬ Noticed (mtxStdoutLine true
      (authFailLine "2026/05/19 01:03:16 INF ".toList loopback 59328
      ": invalid credentials".toList)) loopback := by
  have hnone : mtxStdoutLine true
      (authFailLine "2026/05/19 01:03:16 INF ".toList loopback 59328
      ": invalid credentials".toList) = [] := by
    decide +kernel
  rintro ⟨e, he, -⟩
  rw [hnone] at he
  cases he

end WebcamStreamer
