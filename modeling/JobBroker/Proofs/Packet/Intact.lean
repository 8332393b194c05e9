import JobBroker.Proofs.Packet.Buffers
import JobBroker.Proofs.Packet.Grammar

/-! The invariants of the decoder and its buffers. No sum, difference or cut ever fails, what comes
out is what `Decoder` yields, and what a length has declared is what the buffers hold and what is to
come. A header that the lexer has let end is taken apart without missing a colon or a key, so that
the second reading can refuse it for an empty element only. -/
namespace JobBroker

namespace BufferedDecoder

/-! The second reading of a header. -/

/-- What is in the header buffer is taken apart, in capitals, into items that each have a colon
behind the name of a key. A header without a byte is not taken apart. -/
def Named (header : Bytes) : Prop :=
  ∀ s, Text.decode? header = some s → s.toList ≠ [] →
    ∀ item ∈ Header.items (s.toList.map Char.toUpper), ∃ token k rest,
      item.span (· ≠ ':') = (token, ':' :: rest) ∧ Key.ofToken? token = some k

def Ended (header : Bytes) : Prop :=
  ∃ final, Lex.keyStart.Reads header final ∧ final.mayEnd header.reverse = true

theorem Ended.named {header : Bytes} (h : Ended header) : Named header := by
  intro s hs hsome item hitem
  obtain ⟨final, hreads, hend⟩ := h
  rw [Text.decode?_some hs] at hreads hend
  obtain ⟨items, hcs, hplain⟩ := Spelling.items_of_header hreads hend
  have hne : items.map Item.entry ≠ [] := by
    intro hnil
    rw [List.map_eq_nil_iff.1 hnil] at hcs
    exact hsome hcs
  have hinline : ∀ kv ∈ items.map Item.entry, kv.2.isInline = true := by
    intro kv hkv
    obtain ⟨i, hi, rfl⟩ := List.mem_map.1 hkv
    exact (hplain i hi).upper.inline
  have hitems := Header.items_inline hne hinline []
  rw [hcs, ← Item.header_entry, Header.items, hitems, List.reverse_nil, List.nil_append] at hitem
  obtain ⟨kv, -, rfl⟩ := List.mem_map.1 hitem
  exact ⟨_, kv.1, _, Header.span_item kv, Header.ofToken?_name kv.1⟩

/-! What holds after each byte. -/

/-- Behind `front`, which has left the decoder outside of bodies and of lengths, a parenthesis opens
a packet, and these digits spell a length within the limits. -/
structure Opens (front digits : Bytes) (value : Nat) : Prop where
  outside : (Decoder.start.feed front).1 = .start ∨ (Decoder.start.feed front).1 = .resync
  ascii : ∀ b ∈ digits, 48 ≤ b ∧ b ≤ 57
  few : digits.length ≤ Decoder.maxLengthDigits
  spells : Decoder.readLength 0 digits = value
  bounded : value ≤ maxBody

/-- The packet that the input has opened last declares a body of this length, of which `body` has
come. -/
def Declares (input : Bytes) (declared : Nat) (body : Bytes) : Prop :=
  ∃ front digits, input = front ++ 40 :: digits ++ 41 :: body ∧ Opens front digits declared

theorem Declares.bounded {input : Bytes} {declared : Nat} {body : Bytes}
    (h : Declares input declared body) : declared ≤ maxBody := by
  obtain ⟨_, _, -, hopens⟩ := h
  exact hopens.bounded

theorem Declares.concat {input : Bytes} {declared declared' : Nat} {body : Bytes}
    (h : Declares input declared body) (b : UInt8) (hsame : declared' = declared) :
    Declares (input ++ [b]) declared' (body ++ [b]) := by
  subst hsame
  obtain ⟨front, digits, rfl, hopens⟩ := h
  exact ⟨front, digits, by simp, hopens⟩

def Holds (input : Bytes) (m : BufferedDecoder) : Phase → Prop
  | .start | .resync => True
  | .length value digits =>
    ∃ front spelled, input = front ++ 40 :: spelled ∧ Opens front spelled value ∧
      spelled.length = digits
  | .header remaining place =>
    1 ≤ remaining ∧ Declares input (m.header.length + remaining) m.header ∧ m.message = [] ∧
      m.keyStart ≤ m.header.length ∧ (place = .keyStart → m.keyStart = m.header.length) ∧
      Lex.keyStart.Reads m.header (place.lex (m.header.drop m.keyStart))
  | .message remaining =>
    1 ≤ remaining ∧
      Declares input (m.header.length + 1 + m.message.length + remaining)
        (m.header ++ 10 :: m.message) ∧
      m.keyStart ≤ m.header.length ∧ Ended m.header
  | .skip remaining => 1 ≤ remaining ∧ m.keyStart ≤ m.header.length

structure Kept (m : BufferedDecoder) : Prop where
  few : m.header.length + m.message.length ≤ maxBody
  marked : m.header ≠ [] → m.keyStart ≤ m.header.length

theorem Kept.goTo {m : BufferedDecoder} (h : m.Kept) (phase : Phase) : (m.goTo phase).Kept :=
  ⟨h.few, h.marked⟩

theorem kept_cleared (phase : Phase) (place : Nat) :
    BufferedDecoder.Kept { phase := phase, keyStart := place } :=
  ⟨Nat.zero_le _, fun hsome => absurd rfl hsome⟩

structure Sound (input : Bytes) (m : BufferedDecoder) : Prop where
  plain : m.plain = (Decoder.start.feed input).1
  kept : m.Kept
  holds : m.Holds input m.phase

/-- A byte is taken as `Decoder` takes it, and what held before it holds after it. -/
structure Follows (input : Bytes) (m : BufferedDecoder) (b : UInt8)
    (turn : BufferedDecoder × Option Decoded) : Prop where
  push : m.plain.push b = (turn.1.plain, turn.2)
  kept : turn.1.Kept
  holds : turn.1.Holds (input ++ [b]) turn.1.phase

section Turns
variable {input : Bytes} {m m' : BufferedDecoder} {b : UInt8}

theorem Sound.at_phase {phase : Phase} (h : m.Sound input) (hphase : m.phase = phase) :
    m.Holds input phase := hphase ▸ h.holds

/-! Turns after which nothing is left of the body, or nothing of it is wanted. -/

theorem follows_finish (hkept : m'.Kept)
    (hpush : m.plain.push b =
      (.start, some (Decoder.finish m'.header.reverse m'.message.reverse))) :
    Follows input m b m'.finish := by
  unfold finish
  split
  · rename_i e hfinish
    rw [hfinish] at hpush
    exact ⟨hpush, hkept.goTo _, trivial⟩
  · rename_i p hfinish
    rw [hfinish] at hpush
    exact ⟨hpush, kept_cleared .., trivial⟩

theorem follows_refuse {remaining : Nat} {e : PacketError} (hkept : m'.Kept)
    (hmarked : m'.keyStart ≤ m'.header.length)
    (hpush : m.plain.push b = (Decoder.refused remaining, some (.error e))) :
    Follows input m b (m'.refuse remaining e) := by
  have hplain : (m'.goTo (.refused remaining)).plain = Decoder.refused remaining := by
    rw [goTo, Phase.refused, Decoder.refused]
    split <;> rfl
  have hholds : m'.Holds (input ++ [b]) (.refused remaining) := by
    rw [Phase.refused]
    split
    · trivial
    · exact ⟨Nat.one_le_iff_ne_zero.2 ‹_›, hmarked⟩
  exact ⟨by rw [hpush, refuse, hplain], hkept.goTo _, hholds⟩

/-! In front of a body. -/

theorem holds_opening (m : BufferedDecoder)
    (houtside : (Decoder.start.feed input).1 = .start ∨ (Decoder.start.feed input).1 = .resync) :
    m.Holds (input ++ [40]) (.length 0 0) := by
  have hopens : Opens input [] 0 :=
    ⟨houtside, List.forall_mem_nil _, Nat.zero_le _, rfl, Nat.zero_le _⟩
  exact ⟨input, [], rfl, hopens, rfl⟩

theorem start_follows (h : m.Sound input) (hphase : m.phase = .start) (b : UInt8) :
    ∃ turn, m.push? b = some turn ∧ Follows input m b turn := by
  have hplain : m.plain = .start := by rw [plain, hphase]
  have houtside : (Decoder.start.feed input).1 = .start := h.plain.symm.trans hplain
  refine ⟨_, by rw [push?, hphase], ?_⟩
  by_cases hopen : b = 40
  · subst hopen
    exact ⟨by rw [hplain]; rfl, h.kept.goTo _, holds_opening _ (.inl houtside)⟩
  · have hother : (b == 40) = false := by simpa using hopen
    rw [hother]
    refine ⟨?_, h.kept.goTo _, trivial⟩
    rw [hplain, Decoder.push, hother]
    rfl

theorem resync_follows (h : m.Sound input) (hphase : m.phase = .resync) (b : UInt8) :
    ∃ turn, m.push? b = some turn ∧ Follows input m b turn := by
  have hplain : m.plain = .resync := by rw [plain, hphase]
  have houtside : (Decoder.start.feed input).1 = .resync := h.plain.symm.trans hplain
  refine ⟨_, by rw [push?, hphase], ?_⟩
  by_cases hopen : b = 40
  · subst hopen
    exact ⟨by rw [hplain]; rfl, h.kept.goTo _, holds_opening _ (.inr houtside)⟩
  · have hother : (b == 40) = false := by simpa using hopen
    rw [hother]
    refine ⟨?_, h.kept, by rw [if_neg Bool.false_ne_true, hphase]; trivial⟩
    rw [hplain, Decoder.push, hother]
    exact congrArg (·, none) hplain.symm

theorem digit_fits {value : Nat} (hvalue : value ≤ maxBody) :
    value * 10 + 9 < UInt32.size := by
  have hlimits : maxBody = 1048576 ∧ UInt32.size = 4294967296 := by decide
  omega

theorem Opens.concat {front digits : Bytes} {value : Nat} (h : Opens front digits value)
    (hdigit : 48 ≤ b ∧ b ≤ 57) (hfew : digits.length + 1 ≤ Decoder.maxLengthDigits)
    (hbounded : value * 10 + (b.toNat - 48) ≤ maxBody) :
    Opens front (digits ++ [b]) (value * 10 + (b.toNat - 48)) where
  outside := h.outside
  ascii := List.forall_mem_append.2 ⟨h.ascii, List.forall_mem_singleton.2 hdigit⟩
  few := by rwa [List.length_append, List.length_singleton]
  spells := by
    rw [Decoder.readLength, List.foldl_concat, ← Decoder.readLength, h.spells]
  bounded := hbounded

theorem digit_follows {value digits : Nat} (h : m.Sound input)
    (hphase : m.phase = .length value digits) (hdigit : 48 ≤ b ∧ b ≤ 57) :
    ∃ turn, m.pushLength? value digits b = some turn ∧ Follows input m b turn := by
  have hplain : m.plain = .length value digits := by rw [plain, hphase]
  have hisDigit : (decide (48 ≤ b) && decide (b ≤ 57)) = true := by simpa using hdigit
  obtain ⟨front, spelled, hinput, hopens, hcount⟩ := h.at_phase hphase
  have hsum : value * 10 + (b.toNat - 48) < UInt32.size := by
    have hhigh : b.toNat ≤ 57 := UInt8.le_iff_toNat_le.1 hdigit.2
    have hnine := digit_fits hopens.bounded
    omega
  rw [pushLength?, if_pos hisDigit, fits?, if_pos hsum, Option.map_some]
  refine ⟨_, rfl, ?_⟩
  by_cases hlarge : Decoder.maxLengthDigits < digits + 1 ∨ maxBody < value * 10 + (b.toNat - 48)
  · rw [if_pos hlarge]
    refine ⟨?_, h.kept.goTo _, trivial⟩
    rw [hplain, Decoder.push, Decoder.pushLength, if_pos hisDigit]
    exact if_pos hlarge
  · rw [if_neg hlarge]
    refine ⟨?_, h.kept.goTo _, front, spelled ++ [b], by simp [hinput],
      hopens.concat hdigit (by omega) (by omega), ?_⟩
    · rw [hplain, Decoder.push, Decoder.pushLength, if_pos hisDigit]
      exact if_neg hlarge
    · rw [List.length_append, List.length_singleton, hcount]

theorem lengthEnd_follows {value digits : Nat} (h : m.Sound input)
    (hphase : m.phase = .length value digits) (hdigit : ¬ (48 ≤ b ∧ b ≤ 57)) :
    ∃ turn, m.pushLength? value digits b = some turn ∧ Follows input m b turn := by
  have hplain : m.plain = .length value digits := by rw [plain, hphase]
  have hother : (decide (48 ≤ b) && decide (b ≤ 57)) = false := by simpa using hdigit
  obtain ⟨front, spelled, hinput, hopens, -⟩ := h.at_phase hphase
  have hpush : m.plain.push b = Decoder.pushLength value digits b := by rw [hplain, Decoder.push]
  rw [Decoder.pushLength, hother, if_neg Bool.false_ne_true] at hpush
  rw [pushLength?, hother, if_neg Bool.false_ne_true]
  by_cases hclose : b = 41
  · subst hclose
    rw [if_pos (beq_self_eq_true _)] at hpush ⊢
    by_cases hnone : digits = 0
    · rw [if_pos hnone] at hpush ⊢
      exact ⟨_, rfl, hpush, h.kept.goTo _, trivial⟩
    rw [if_neg hnone] at hpush ⊢
    by_cases hzero : value = 0
    · rw [if_pos hzero] at hpush ⊢
      exact ⟨_, rfl, hpush, h.kept.goTo _, trivial⟩
    rw [if_neg hzero] at hpush ⊢
    have hdeclares : Declares (input ++ [41]) (0 + value) [] :=
      ⟨front, spelled, by simp [hinput], (Nat.zero_add value).symm ▸ hopens⟩
    exact ⟨_, rfl, hpush, kept_cleared .., Nat.one_le_iff_ne_zero.2 hzero, hdeclares, rfl,
      Nat.le_refl 0, fun _ => rfl, .done _⟩
  · rw [if_neg (by simpa using hclose)] at hpush ⊢
    exact ⟨_, rfl, hpush, h.kept.goTo _, trivial⟩

/-! Inside a header. -/

theorem lex_withHeaderByte {place : HeaderPlace} {next : Lex}
    (hmarked : m.keyStart ≤ m.header.length)
    (hstart : place = .keyStart → m.keyStart = m.header.length)
    (hstep : (place.lex (m.header.drop m.keyStart)).step b = .ok next) :
    let m' := m.withHeaderByte b (.ofLex next)
    (HeaderPlace.ofLex next).lex (m'.header.drop m'.keyStart) = next ∧
      m'.keyStart ≤ m'.header.length ∧
      (HeaderPlace.ofLex next = .keyStart → m'.keyStart = m'.header.length) := by
  have hlength : (m.header ++ [b]).length = m.header.length + 1 := List.length_append
  have hopen : m.keyStart ≤ (m.header ++ [b]).length := by omega
  have hdrop : (m.header ++ [b]).drop m.keyStart = m.header.drop m.keyStart ++ [b] :=
    List.drop_append_of_le_length hmarked
  have htakes := Lex.takes_of_step hstep
  cases place with
  | keyStart =>
    cases htakes
    have hnone : m.header.drop m.keyStart = [] := by rw [hstart rfl, List.drop_length]
    rw [hnone, List.nil_append] at hdrop
    have hitem := congrArg (fun item : Bytes => Lex.key item.reverse) hdrop
    exact ⟨hitem, hopen, nofun⟩
  | key =>
    cases htakes with
    | goesOn token =>
      have hitem := congrArg (fun item : Bytes => Lex.key item.reverse) hdrop
      rw [List.reverse_append] at hitem
      exact ⟨hitem, hopen, nofun⟩
    | keyEnds => exact ⟨rfl, hopen, nofun⟩
  | value empty =>
    cases htakes with
    | scalar | opens => exact ⟨rfl, hopen, nofun⟩
    | valueEnds => exact ⟨rfl, Nat.le_of_eq hlength.symm, fun _ => hlength.symm⟩
  | array =>
    cases htakes with
    | element | closes => exact ⟨rfl, hopen, nofun⟩
  | arrayEnd =>
    cases htakes
    exact ⟨rfl, Nat.le_of_eq hlength.symm, fun _ => hlength.symm⟩

theorem plain_header {remaining : Nat} {place : HeaderPlace}
    (hphase : m.phase = .header remaining place) :
    m.plain = .header remaining (place.lex (m.header.drop m.keyStart)) m.header.reverse := by
  rw [plain, hphase]

theorem newline_follows {left : Nat} {place : HeaderPlace} (h : m.Sound input)
    (hphase : m.phase = .header (left + 1) place) :
    ∃ turn, m.pushHeader? left place 10 = some turn ∧ Follows input m 10 turn := by
  obtain ⟨-, hdeclares, hmessage, hmarked, -, hreads⟩ := h.at_phase hphase
  have hpush : m.plain.push 10 =
      if place.mayEnd m.header then
        if left = 0 then (.start, some (Decoder.finish m.header.reverse []))
        else (.message left m.header.reverse [], none)
      else (Decoder.refused left, some (.error (.headerSyntax 10))) := by
    rw [plain_header hphase, Decoder.push, Decoder.pushHeader, HeaderPlace.mayEnd_lex]
    rfl
  rw [pushHeader?, if_pos (beq_self_eq_true _)]
  by_cases hend : place.mayEnd m.header = true
  · rw [if_pos hend] at hpush ⊢
    by_cases hlast : left = 0
    · rw [if_pos hlast] at hpush ⊢
      exact ⟨_, rfl, follows_finish h.kept (by rw [hpush, hmessage]; rfl)⟩
    · rw [if_neg hlast] at hpush ⊢
      have hended : Ended m.header := ⟨_, hreads, (HeaderPlace.mayEnd_lex ..).trans hend⟩
      have hcount : m.header.length + 1 + m.message.length + left =
          m.header.length + (left + 1) := by
        rw [hmessage, List.length_nil]
        omega
      have hbody : m.header ++ 10 :: m.message = m.header ++ [10] := by rw [hmessage]
      have hplain : (m.goTo (.message left)).plain = .message left m.header.reverse [] :=
        congrArg (fun body : Bytes => Decoder.message left m.header.reverse body.reverse) hmessage
      have hnext := hdeclares.concat 10 hcount
      rw [← hbody] at hnext
      exact ⟨_, rfl, by rw [hpush, hplain], h.kept.goTo _, Nat.one_le_iff_ne_zero.2 hlast, hnext,
        hmarked, hended⟩
  · rw [if_neg hend] at hpush ⊢
    exact ⟨_, rfl, follows_refuse h.kept hmarked hpush⟩

theorem headerByte_follows {left : Nat} {place : HeaderPlace} (h : m.Sound input)
    (hphase : m.phase = .header (left + 1) place) (hinline : b ≠ 10) :
    ∃ turn, m.pushHeader? left place b = some turn ∧ Follows input m b turn := by
  obtain ⟨-, hdeclares, hmessage, hmarked, hstart, hreads⟩ := h.at_phase hphase
  have hother : (b == 10) = false := by simpa using hinline
  have hcut : from? m.header m.keyStart = some (m.header.drop m.keyStart) := if_pos hmarked
  have hpush : m.plain.push b = Decoder.pushHeader left (place.lex (m.header.drop m.keyStart))
      m.header.reverse b := by
    rw [plain_header hphase]
    rfl
  rw [Decoder.pushHeader, hother, if_neg Bool.false_ne_true] at hpush
  rw [pushHeader?, hother, if_neg Bool.false_ne_true, hcut, Option.map_some]
  refine ⟨_, rfl, ?_⟩
  cases hstep : (place.lex (m.header.drop m.keyStart)).step b with
  | error e =>
    rw [hstep] at hpush
    exact follows_refuse h.kept hmarked hpush
  | ok next =>
    rw [hstep] at hpush
    dsimp only at hpush ⊢
    obtain ⟨hlex, hmarked', hstart'⟩ := lex_withHeaderByte hmarked hstart hstep
    have hheader : (m.withHeaderByte b (.ofLex next)).header.length = m.header.length + 1 :=
      List.length_append
    have hempty : (m.withHeaderByte b (.ofLex next)).message = [] := hmessage
    have hkept : (m.withHeaderByte b (.ofLex next)).Kept := by
      have hbound := hdeclares.bounded
      refine ⟨?_, fun _ => hmarked'⟩
      rw [hheader, hempty, List.length_nil]
      omega
    by_cases hlast : left = 0
    · rw [if_pos hlast] at hpush ⊢
      exact follows_refuse hkept hmarked' hpush
    · rw [if_neg hlast] at hpush ⊢
      have hcount : (m.withHeaderByte b (.ofLex next)).header.length + left =
          m.header.length + (left + 1) := by omega
      refine ⟨?_, hkept.goTo _, Nat.one_le_iff_ne_zero.2 hlast, hdeclares.concat b hcount, hempty,
        hmarked', hstart', ?_⟩
      · have hreverse : (m.withHeaderByte b (.ofLex next)).header.reverse =
            b :: m.header.reverse := List.reverse_append
        rw [hpush, plain_header rfl]
        dsimp only [goTo]
        rw [hlex, hreverse]
      · dsimp only [goTo]
        rw [hlex]
        exact hreads.append (.one hinline hstep)

/-! Inside a message, and inside what is skipped. -/

theorem message_follows {remaining : Nat} (h : m.Sound input)
    (hphase : m.phase = .message remaining) (b : UInt8) :
    ∃ turn, m.push? b = some turn ∧ Follows input m b turn := by
  obtain ⟨hsome, hdeclares, hmarked, hended⟩ := h.at_phase hphase
  have hplain : m.plain = .message remaining m.header.reverse m.message.reverse := by
    rw [plain, hphase]
  have hlength : (m.message ++ [b]).length = m.message.length + 1 := List.length_append
  have hreverse : (m.message ++ [b]).reverse = b :: m.message.reverse := List.reverse_append
  have hkept : BufferedDecoder.Kept { m with message := m.message ++ [b] } := by
    have hbound := hdeclares.bounded
    refine ⟨?_, fun _ => hmarked⟩
    dsimp only
    omega
  rw [push?, hphase]
  dsimp only
  by_cases hlast : remaining = 1
  · rw [if_pos hlast]
    refine ⟨_, rfl, follows_finish (hkept.goTo _) ?_⟩
    rw [hplain, Decoder.push, if_pos hlast, ← hreverse]
  · have hminus : minus? remaining 1 = some (remaining - 1) := if_pos hsome
    have hcount : m.header.length + 1 + (m.message ++ [b]).length + (remaining - 1) =
        m.header.length + 1 + m.message.length + remaining := by omega
    have hnext := hdeclares.concat b hcount
    rw [List.append_assoc, List.cons_append] at hnext
    rw [if_neg hlast, hminus, Option.map_some]
    refine ⟨_, rfl, ?_, hkept.goTo _, by omega, hnext, hmarked, hended⟩
    rw [hplain, Decoder.push, if_neg hlast, ← hreverse]
    rfl

theorem skip_follows {remaining : Nat} (h : m.Sound input) (hphase : m.phase = .skip remaining)
    (b : UInt8) : ∃ turn, m.push? b = some turn ∧ Follows input m b turn := by
  obtain ⟨hsome, hmarked⟩ := h.at_phase hphase
  have hplain : m.plain = .skip remaining := by rw [plain, hphase]
  rw [push?, hphase]
  dsimp only
  by_cases hlast : remaining = 1
  · rw [if_pos hlast]
    refine ⟨_, rfl, ?_, h.kept.goTo _, trivial⟩
    rw [hplain, Decoder.push, if_pos hlast]
    rfl
  · have hminus : minus? remaining 1 = some (remaining - 1) := if_pos hsome
    rw [if_neg hlast, hminus, Option.map_some]
    refine ⟨_, rfl, ?_, h.kept.goTo _, by omega, hmarked⟩
    rw [hplain, Decoder.push, if_neg hlast]
    rfl

theorem Sound.push (h : m.Sound input) (b : UInt8) :
    ∃ turn, m.push? b = some turn ∧ Follows input m b turn := by
  cases hphase : m.phase with
  | start => exact start_follows h hphase b
  | resync => exact resync_follows h hphase b
  | length value digits =>
    rw [push?, hphase]
    by_cases hdigit : 48 ≤ b ∧ b ≤ 57
    · exact digit_follows h hphase hdigit
    · exact lengthEnd_follows h hphase hdigit
  | header remaining place =>
    obtain ⟨left, rfl⟩ := Nat.exists_eq_add_one.2 (h.at_phase hphase).1
    have hminus : minus? (left + 1) 1 = some left := if_pos (Nat.le_add_left 1 left)
    rw [push?, hphase]
    dsimp only
    rw [hminus, Option.bind_some]
    by_cases hnewline : b = 10
    · subst hnewline
      exact newline_follows h hphase
    · exact headerByte_follows h hphase hnewline
  | message remaining => exact message_follows h hphase b
  | skip remaining => exact skip_follows h hphase b

theorem Follows.sound {turn : BufferedDecoder × Option Decoded} (h : m.Sound input)
    (hturn : Follows input m b turn) : turn.1.Sound (input ++ [b]) where
  plain := by
    rw [Decoder.feed_append, Decoder.feed_cons, ← h.plain, hturn.push]
    rfl
  kept := hturn.kept
  holds := hturn.holds

theorem Sound.feed (h : m.Sound input) (bytes : Bytes) :
    ∃ last, m.feed? bytes = some (last, (m.plain.feed bytes).2) ∧
      last.Sound (input ++ bytes) := by
  induction bytes generalizing m input with
  | nil => exact ⟨m, rfl, by rwa [List.append_nil]⟩
  | cons b bytes ih =>
    obtain ⟨turn, hpush, hturn⟩ := h.push b
    obtain ⟨last, hfeed, hsound⟩ := ih (hturn.sound h)
    refine ⟨last, ?_, by rwa [List.append_assoc] at hsound⟩
    rw [feed?, hpush, Option.bind_some]
    dsimp only
    rw [hfeed, Decoder.feed_cons, hturn.push]
    rfl

end Turns

theorem sound_start : Sound [] {} := ⟨rfl, kept_cleared .., trivial⟩

/-! The invariants. -/

def mayFinish (m : BufferedDecoder) : Bool :=
  match m.phase with
  | .header _ place => place.mayEnd m.header
  | .message _ => true
  | .start | .length .. | .skip _ | .resync => false

/-- The invariants of the state after `input`. -/
structure Intact (input : Bytes) (m : BufferedDecoder) : Prop where
  /-- One more digit can be read without running over. -/
  length : ∀ value digits, m.phase = .length value digits →
    digits ≤ 7 ∧ value ≤ maxBody ∧ value * 10 + 9 < UInt32.size
  header : ∀ remaining place, m.phase = .header remaining place →
    1 ≤ remaining ∧ Declares input (m.header.length + remaining) m.header
  message : ∀ remaining, m.phase = .message remaining →
    1 ≤ remaining ∧
      Declares input (m.header.length + 1 + m.message.length + remaining)
        (m.header ++ 10 :: m.message)
  skip : ∀ remaining, m.phase = .skip remaining → 1 ≤ remaining
  /-- Between packets the mark is of no use until the next body sets it back. Only there may it lie
  beyond the buffer, which a complete packet has emptied. -/
  keyStart : m.phase.inBody = true ∨ m.header ≠ [] → m.keyStart ≤ m.header.length
  buffers : m.header.length + m.message.length ≤ maxBody
  named : m.mayFinish = true → Named m.header

theorem Sound.keyStart_le {input : Bytes} {m : BufferedDecoder} (h : m.Sound input)
    (hbody : m.phase.inBody = true) : m.keyStart ≤ m.header.length := by
  cases hphase : m.phase with
  | header remaining place =>
    obtain ⟨-, -, -, hmarked, -⟩ := h.at_phase hphase
    exact hmarked
  | message remaining =>
    obtain ⟨-, -, hmarked, -⟩ := h.at_phase hphase
    exact hmarked
  | skip remaining => exact (h.at_phase hphase).2
  | start | length | resync =>
    rw [hphase] at hbody
    cases hbody

theorem Sound.ended {input : Bytes} {m : BufferedDecoder} (h : m.Sound input)
    (hfinish : m.mayFinish = true) : Ended m.header := by
  rw [mayFinish] at hfinish
  cases hphase : m.phase with
  | header remaining place =>
    obtain ⟨-, -, -, -, -, hreads⟩ := h.at_phase hphase
    rw [hphase] at hfinish
    exact ⟨_, hreads, (HeaderPlace.mayEnd_lex ..).trans hfinish⟩
  | message remaining =>
    obtain ⟨-, -, -, hended⟩ := h.at_phase hphase
    exact hended
  | start | length | skip | resync =>
    rw [hphase] at hfinish
    cases hfinish

theorem Sound.intact {input : Bytes} {m : BufferedDecoder} (h : m.Sound input) :
    m.Intact input where
  length := by
    intro value digits hphase
    obtain ⟨_, _, -, hopens, rfl⟩ := h.at_phase hphase
    exact ⟨hopens.few, hopens.bounded, digit_fits hopens.bounded⟩
  header := by
    intro remaining place hphase
    obtain ⟨hsome, hdeclares, -⟩ := h.at_phase hphase
    exact ⟨hsome, hdeclares⟩
  message := by
    intro remaining hphase
    obtain ⟨hsome, hdeclares, -⟩ := h.at_phase hphase
    exact ⟨hsome, hdeclares⟩
  skip := fun _ hphase => (h.at_phase hphase).1
  keyStart := fun hheld => hheld.elim h.keyStart_le h.kept.marked
  buffers := h.kept.few
  named := fun hfinish => (h.ended hfinish).named

/-- Whatever bytes a fresh decoder is given, no sum, difference or cut fails, every outcome is that
of `Decoder`, and the invariants of the state hold: no countdown is at zero, what the buffers hold
and what is to come is what the length has declared, and a header that ends is without fault where
the second reading looks for colons and keys. -/
theorem buffers_intact (bytes : Bytes) :
    ∃ m : BufferedDecoder, feed? {} bytes = some (m, (Decoder.start.feed bytes).2) ∧
      m.plain = (Decoder.start.feed bytes).1 ∧ m.Intact bytes := by
  obtain ⟨m, hfeed, hsound⟩ := sound_start.feed bytes
  exact ⟨m, hfeed, hsound.plain, hsound.intact⟩

/-- Between packets the mark has no bound: the header of a packet with two items is given up with
the packet, and the mark of the second item, which was the tenth byte, is not. -/
theorem keyStart_outlives_header :
    ∃ (m : BufferedDecoder) (outcomes : List Decoded),
      feed? {} (Text.utf8 "(20)JOB_ID:1,JOB_TYPE:A\n".toList) = some (m, outcomes) ∧
        m.phase = .start ∧ m.header = [] ∧ m.keyStart = 9 ∧ ¬ m.keyStart ≤ m.header.length := by
  have hturns : (feed? {} (Text.utf8 "(20)JOB_ID:1,JOB_TYPE:A\n".toList)).map (fun turns =>
      (turns.1.phase, turns.1.header, turns.1.keyStart)) = some (.start, [], 9) := by
    decide +kernel
  obtain ⟨⟨m, outcomes⟩, hfeed, hleft⟩ := Option.map_eq_some_iff.1 hturns
  obtain ⟨hphase, hheader, hmark⟩ : m.phase = .start ∧ m.header = [] ∧ m.keyStart = 9 := by
    simpa using hleft
  refine ⟨m, outcomes, hfeed, hphase, hheader, hmark, ?_⟩
  rw [hmark, hheader]
  decide

end BufferedDecoder

end JobBroker
