import Goldfish.Devices.Qemud
import Goldfish.Lib.Framing

/-!
# Goldfish.Devices.QemudParser

What the qemud `Parser` delivers, **for every way a stream is cut into chunks**.

The packets of a stream are those of a `Framing` (`packets`). One call of `onReceive` is
compared with it in `receiveLoop_spec`: the call delivers the packets that are complete in
the buffer and the new data together and keeps the rest, but for one case. When the
buffer holds a part of a header and the data ends with that header, the loop stops before
it looks at the size. A packet without payload is then complete and stays in the buffer
(`Stalls`) until more data comes.
-/

namespace Goldfish.Devices.Qemud

open Goldfish.Lib

variable {σ : Type}

/-! ### The packets of a stream -/

/-- The packet a stream begins with. -/
def nextPacket (s : Bytes) : Option (Bytes × Bytes) :=
  if kSizeSize ≤ s.length ∧ kSizeSize + decodeRequestSize s ≤ s.length then
    some ((s.drop kSizeSize).take (decodeRequestSize s), s.drop (kSizeSize + decodeRequestSize s))
  else none

theorem nextPacket_eq_some {s b r : Bytes} :
    nextPacket s = some (b, r) ↔ ∃ hdr, hdr.length = kSizeSize ∧ decodeRequestSize hdr = b.length ∧
      s = hdr ++ b ++ r := by
  unfold nextPacket
  constructor
  · intro h
    split_ifs at h with hlen
    obtain ⟨h4, hreq⟩ := hlen
    simp only [Option.some.injEq, Prod.mk.injEq] at h
    obtain ⟨rfl, rfl⟩ := h
    have htake : (s.take kSizeSize).length = kSizeSize := by
      rw [List.length_take]
      omega
    have hdec : decodeRequestSize (s.take kSizeSize) = decodeRequestSize s := by
      have happ := decodeRequestSize_append (Nat.le_of_eq htake.symm) (s.drop kSizeSize)
      rw [List.take_append_drop] at happ
      exact happ.symm
    refine ⟨s.take kSizeSize, htake, ?_, ?_⟩
    · rw [hdec, List.length_take, List.length_drop]
      omega
    · rw [List.append_assoc, ← List.drop_drop, List.take_append_drop, List.take_append_drop]
  · intro hpacket
    obtain ⟨hdr, hlen, hdec, rfl⟩ := hpacket
    have hsize : decodeRequestSize (hdr ++ b ++ r) = b.length := by
      rw [List.append_assoc, decodeRequestSize_append (Nat.le_of_eq hlen.symm), hdec]
    rw [hsize, if_pos (by simp only [List.length_append]; omega), ← hlen, ← List.drop_drop]
    simp

/-- The qemud packets as a framing. -/
def packets : Framing UInt8 Bytes where
  next := nextPacket
  next_split := by
    intro s b r h
    obtain ⟨hdr, hlen, hdec, rfl⟩ := nextPacket_eq_some.mp h
    refine ⟨hdr ++ b, ?_, rfl, nextPacket_eq_some.mpr ⟨hdr, hlen, hdec, by simp⟩⟩
    intro hnil
    rw [(List.append_eq_nil_iff.mp hnil).1] at hlen
    cases hlen
  next_append := by
    intro s b r t h
    obtain ⟨hdr, hlen, hdec, rfl⟩ := nextPacket_eq_some.mp h
    exact nextPacket_eq_some.mpr ⟨hdr, hlen, hdec, by simp⟩

theorem packets_next {hdr b r : Bytes} (hlen : hdr.length = kSizeSize)
    (hdec : decodeRequestSize hdr = b.length) : packets.next (hdr ++ b ++ r) = some (b, r) :=
  nextPacket_eq_some.mpr ⟨hdr, hlen, hdec, rfl⟩

theorem incomplete_iff {s : Bytes} : packets.Incomplete s ↔
    s.length < kSizeSize ∨ s.length < kSizeSize + decodeRequestSize s := by
  show nextPacket s = none ↔ _
  unfold nextPacket
  split_ifs with h
  · simp only [false_iff]
    omega
  · simp only [true_iff]
    omega

/-! ### The loops of `onReceive` -/

/-- Sink calls, one after the other. -/
def Loop.callAll (sink : Sink σ) (payloads : List Bytes) (l : Loop σ) : Loop σ :=
  payloads.foldl (fun l payload => l.callSink sink payload) l

@[simp] theorem Loop.callAll_nil (sink : Sink σ) (l : Loop σ) : l.callAll sink [] = l := rfl

@[simp] theorem Loop.callAll_cons (sink : Sink σ) (payload : Bytes) (payloads : List Bytes)
    (l : Loop σ) :
    l.callAll sink (payload :: payloads) = (l.callSink sink payload).callAll sink payloads := rfl

@[simp] theorem Loop.callSink_mBuffer (sink : Sink σ) (payload : Bytes) (l : Loop σ) :
    (l.callSink sink payload).parser.mBuffer = l.parser.mBuffer := rfl

@[simp] theorem Loop.callSink_setBuffer (sink : Sink σ) (payload b : Bytes) (l : Loop σ) :
    (l.setBuffer b).callSink sink payload = (l.callSink sink payload).setBuffer b := rfl

@[simp] theorem Loop.setBuffer_setBuffer (b b' : Bytes) (l : Loop σ) :
    (l.setBuffer b).setBuffer b' = l.setBuffer b' := rfl

theorem Loop.setBuffer_self {l : Loop σ} {b : Bytes} (h : l.parser.mBuffer = b) :
    l.setBuffer b = l := by
  subst h
  rfl

@[simp] theorem Loop.callAll_setBuffer (sink : Sink σ) (payloads : List Bytes) (b : Bytes)
    (l : Loop σ) : (l.setBuffer b).callAll sink payloads = (l.callAll sink payloads).setBuffer b := by
  induction payloads generalizing l with
  | nil => rfl
  | cons payload payloads ih => simp only [Loop.callAll_cons, Loop.callSink_setBuffer, ih]

/-- The inner loop delivers the packets in the data. -/
theorem wholePackets_eq (sink : Sink σ) (data8 : Bytes) (l : Loop σ) :
    wholePackets sink data8 l = (packets.rest data8, l.callAll sink (packets.frames data8)) := by
  induction data8 using packets.induction_on generalizing l with
  | incomplete s h =>
    rw [Framing.rest_of_incomplete h, Framing.frames_of_incomplete h, wholePackets]
    rw [incomplete_iff] at h
    by_cases h4 : kSizeSize ≤ s.length
    · rw [if_pos h4, if_neg (by omega)]
      rfl
    · rw [if_neg h4]
      rfl
  | next s b r h ih =>
    rw [Framing.rest_of_next h, Framing.frames_of_next h, Loop.callAll_cons, ← ih, wholePackets]
    change nextPacket s = some (b, r) at h
    unfold nextPacket at h
    split_ifs at h with hlen
    simp only [Option.some.injEq, Prod.mk.injEq] at h
    rw [if_pos hlen.1, if_pos hlen.2, h.1, h.2]

@[simp] theorem receiveLoop_nil (sink : Sink σ) (l : Loop σ) : receiveLoop sink [] l = l := by
  rw [receiveLoop]
  rfl

/-- From an empty buffer. -/
theorem receiveLoop_empty (sink : Sink σ) (data8 : Bytes) {l : Loop σ}
    (hbuf : l.parser.mBuffer = []) :
    receiveLoop sink data8 l =
      (l.callAll sink (packets.frames data8)).setBuffer (packets.rest data8) := by
  cases data8 with
  | nil =>
    rw [Framing.frames_of_incomplete Framing.incomplete_nil,
      Framing.rest_of_incomplete Framing.incomplete_nil, receiveLoop_nil, Loop.callAll_nil,
      Loop.setBuffer_self hbuf]
  | cons x xs =>
    rw [receiveLoop]
    simp only [hbuf, List.length_cons, List.length_nil, Nat.add_eq_zero_iff, Nat.one_ne_zero, and_false,
      if_false, if_true, wholePackets_eq]

/-- From a buffered header: its payload comes next. -/
theorem receiveLoop_header (sink : Sink σ) {data8 : Bytes} (hdata : data8 ≠ []) {l : Loop σ}
    {buf : Bytes} (hbuf : l.parser.mBuffer = buf) (hlen : buf.length = kSizeSize) :
    receiveLoop sink data8 l =
      (l.callAll sink (packets.frames (buf ++ data8))).setBuffer (packets.rest (buf ++ data8)) := by
  have hpos := List.length_pos_of_ne_nil hdata
  have h4 : kSizeSize = 4 := rfl
  rw [receiveLoop]
  simp only [hbuf, if_neg (Nat.ne_of_gt hpos), if_neg (show ¬ buf.length = 0 by omega),
    if_neg (show ¬ buf.length < kSizeSize by omega), if_pos hlen]
  by_cases hreq : decodeRequestSize buf ≤ data8.length
  · have hnext : packets.next (buf ++ data8) =
        some (data8.take (decodeRequestSize buf), data8.drop (decodeRequestSize buf)) := by
      have := packets_next (b := data8.take (decodeRequestSize buf))
        (r := data8.drop (decodeRequestSize buf)) hlen (by rw [List.length_take]; omega)
      rwa [List.append_assoc, List.take_append_drop] at this
    rw [if_pos hreq, receiveLoop_empty sink _ (Loop.setBuffer_mBuffer _ _),
      Framing.frames_of_next hnext, Framing.rest_of_next hnext]
    simp only [Loop.callAll_cons, Loop.callAll_setBuffer, Loop.setBuffer_setBuffer]
  · have hinc : packets.Incomplete (buf ++ data8) := by
      rw [incomplete_iff, decodeRequestSize_append (Nat.le_of_eq hlen.symm), List.length_append]
      omega
    rw [if_neg hreq, Framing.frames_of_incomplete hinc, Framing.rest_of_incomplete hinc,
      Nat.min_eq_right (by omega), List.drop_length, List.take_length, receiveLoop_nil,
      Loop.callAll_nil]

/-- From a buffered header with a part of the payload. -/
theorem receiveLoop_payload (sink : Sink σ) {data8 : Bytes} (hdata : data8 ≠ []) {l : Loop σ}
    {buf : Bytes} (hbuf : l.parser.mBuffer = buf) (hlen : kSizeSize < buf.length)
    (hinc : packets.Incomplete buf) :
    receiveLoop sink data8 l =
      (l.callAll sink (packets.frames (buf ++ data8))).setBuffer (packets.rest (buf ++ data8)) := by
  have hpos := List.length_pos_of_ne_nil hdata
  have h4 : kSizeSize = 4 := rfl
  have hreq := decodeRequestSize_lt buf
  have hlt : buf.length < kSizeSize + decodeRequestSize buf := by
    rw [incomplete_iff] at hinc
    omega
  have hsub : sizeSub (kSizeSize + decodeRequestSize buf) buf.length =
      kSizeSize + decodeRequestSize buf - buf.length := by
    exact sizeSub_of_le (by omega) (by omega)
  rw [receiveLoop]
  simp only [hbuf, if_neg (Nat.ne_of_gt hpos), if_neg (show ¬ buf.length = 0 by omega),
    if_neg (show ¬ buf.length < kSizeSize by omega), if_neg (show ¬ buf.length = kSizeSize by omega),
    hsub]
  have hsize : decodeRequestSize (buf ++ data8) = decodeRequestSize buf :=
    decodeRequestSize_append (Nat.le_of_lt hlen) data8
  by_cases henough : kSizeSize + decodeRequestSize buf - buf.length ≤ data8.length
  · -- the packet is complete in the buffer
    have hnext : packets.next (buf ++ data8) =
        some (buf.drop kSizeSize ++ data8.take (kSizeSize + decodeRequestSize buf - buf.length),
          data8.drop (kSizeSize + decodeRequestSize buf - buf.length)) := by
      refine nextPacket_eq_some.mpr ⟨buf.take kSizeSize, ?_, ?_, ?_⟩
      · rw [List.length_take]
        omega
      · have hheader : kSizeSize ≤ (buf.take kSizeSize).length := by
          rw [List.length_take]
          omega
        have happ := decodeRequestSize_append hheader (buf.drop kSizeSize)
        rw [List.take_append_drop] at happ
        rw [← happ, List.length_append, List.length_drop, List.length_take]
        omega
      · rw [← List.append_assoc, List.take_append_drop, List.append_assoc, List.take_append_drop]
    have hpayload : (buf.drop kSizeSize ++
        data8.take (kSizeSize + decodeRequestSize buf - buf.length)).length =
          decodeRequestSize buf := by
      rw [List.length_append, List.length_drop, List.length_take]
      omega
    rw [Nat.min_eq_left henough, if_pos (by congr 1; omega),
      List.drop_append_of_le_length (Nat.le_of_lt hlen), List.take_of_length_le (Nat.le_of_eq hpayload),
      receiveLoop_empty sink _ (Loop.setBuffer_mBuffer _ _), Framing.frames_of_next hnext,
      Framing.rest_of_next hnext]
    simp only [Loop.callAll_cons, Loop.callSink_setBuffer, Loop.callAll_setBuffer,
      Loop.setBuffer_setBuffer]
  · have hinc' : packets.Incomplete (buf ++ data8) := by
      rw [incomplete_iff, hsize, List.length_append]
      omega
    rw [Nat.min_eq_right (by omega), if_neg (by omega), List.drop_length, List.take_length,
      receiveLoop_nil, Framing.frames_of_incomplete hinc', Framing.rest_of_incomplete hinc',
      Loop.callAll_nil]

/-- From a part of a header. -/
theorem receiveLoop_splitHeader (sink : Sink σ) {data8 : Bytes} (hdata : data8 ≠ []) {l : Loop σ}
    {buf : Bytes} (hbuf : l.parser.mBuffer = buf) (hne : buf ≠ []) (hlen : buf.length < kSizeSize) :
    receiveLoop sink data8 l =
      if buf.length + data8.length ≤ kSizeSize then l.setBuffer (buf ++ data8)
      else (l.callAll sink (packets.frames (buf ++ data8))).setBuffer
        (packets.rest (buf ++ data8)) := by
  have hpos := List.length_pos_of_ne_nil hdata
  have hpos' := List.length_pos_of_ne_nil hne
  rw [receiveLoop]
  simp only [hbuf, if_neg (Nat.ne_of_gt hpos), if_neg (Nat.ne_of_gt hpos'), if_pos hlen]
  by_cases hfit : buf.length + data8.length ≤ kSizeSize
  · rw [if_pos hfit, Nat.min_eq_right (by omega), List.drop_length, List.take_length,
      receiveLoop_nil]
  · have hrest : data8.drop (kSizeSize - buf.length) ≠ [] := by
      rw [← List.length_pos_iff, List.length_drop]
      omega
    rw [if_neg hfit, Nat.min_eq_left (by omega),
      receiveLoop_header sink hrest (Loop.setBuffer_mBuffer _ _)
        (by rw [List.length_append, List.length_take]; omega),
      List.append_assoc, List.take_append_drop, Loop.callAll_setBuffer, Loop.setBuffer_setBuffer]

/-! ### One call of `onReceive` -/

/-- The header of a packet without payload. -/
def EmptyPacket (hdr : Bytes) : Prop := hdr.length = kSizeSize ∧ decodeRequestSize hdr = 0

instance EmptyPacket.decidable (hdr : Bytes) : Decidable (EmptyPacket hdr) :=
  inferInstanceAs (Decidable (_ ∧ _))

/-- The data ends with a header that began in an earlier chunk, and announces no payload. -/
def Stalls (buf data8 : Bytes) : Prop :=
  buf ≠ [] ∧ data8 ≠ [] ∧ EmptyPacket (buf ++ data8)

instance Stalls.decidable (buf data8 : Bytes) : Decidable (Stalls buf data8) :=
  inferInstanceAs (Decidable (_ ∧ _ ∧ _))

/-- What a buffer may hold between two calls. -/
def Pending (buf : Bytes) : Prop := packets.Incomplete buf ∨ EmptyPacket buf

theorem EmptyPacket.next {hdr : Bytes} (h : EmptyPacket hdr) : packets.next hdr = some ([], []) := by
  have hnext := packets_next (b := []) (r := []) h.1 h.2
  rwa [List.append_nil, List.append_nil] at hnext

theorem EmptyPacket.frames {hdr : Bytes} (h : EmptyPacket hdr) : packets.frames hdr = [[]] := by
  rw [Framing.frames_of_next h.next, Framing.frames_of_incomplete Framing.incomplete_nil]

theorem EmptyPacket.whole {hdr : Bytes} (h : EmptyPacket hdr) : packets.Whole hdr := by
  rw [Framing.Whole, Framing.rest_of_next h.next, Framing.rest_of_incomplete Framing.incomplete_nil]

theorem EmptyPacket.not_incomplete {hdr : Bytes} (h : EmptyPacket hdr) :
    ¬ packets.Incomplete hdr := by
  rw [Framing.Incomplete, h.next]
  exact Option.some_ne_none _

/-- **One call delivers what is complete, unless it stalls.** -/
theorem receiveLoop_spec (sink : Sink σ) {data8 : Bytes} (hdata : data8 ≠ []) {l : Loop σ}
    {buf : Bytes} (hbuf : l.parser.mBuffer = buf) (hpending : Pending buf) :
    receiveLoop sink data8 l =
      if Stalls buf data8 then l.setBuffer (buf ++ data8)
      else (l.callAll sink (packets.frames (buf ++ data8))).setBuffer
        (packets.rest (buf ++ data8)) := by
  have hpos := List.length_pos_of_ne_nil hdata
  rcases Nat.lt_trichotomy buf.length kSizeSize with hlt | heq | hgt
  · by_cases hne : buf = []
    · subst hne
      rw [if_neg (fun h => h.1 rfl), receiveLoop_empty sink data8 hbuf, List.nil_append]
    · rw [receiveLoop_splitHeader sink hdata hbuf hne hlt]
      by_cases hstall : Stalls buf data8
      · have hlen := hstall.2.2.1
        rw [List.length_append] at hlen
        rw [if_pos hstall, if_pos (Nat.le_of_eq hlen)]
      · rw [if_neg hstall]
        by_cases hfit : buf.length + data8.length ≤ kSizeSize
        · -- the header is not complete, or it announces a payload
          have hinc : packets.Incomplete (buf ++ data8) := by
            have hsize : ¬ EmptyPacket (buf ++ data8) := fun h => hstall ⟨hne, hdata, h⟩
            rw [EmptyPacket, List.length_append] at hsize
            rw [incomplete_iff, List.length_append]
            omega
          rw [if_pos hfit, Framing.frames_of_incomplete hinc, Framing.rest_of_incomplete hinc,
            Loop.callAll_nil]
        · rw [if_neg hfit]
  · have hstall : ¬ Stalls buf data8 := by
      intro h
      have hlen := h.2.2.1
      rw [List.length_append] at hlen
      omega
    rw [if_neg hstall, receiveLoop_header sink hdata hbuf heq]
  · have hstall : ¬ Stalls buf data8 := by
      intro h
      have hlen := h.2.2.1
      rw [List.length_append] at hlen
      omega
    rcases hpending with hinc | hempty
    · rw [if_neg hstall, receiveLoop_payload sink hdata hbuf hgt hinc]
    · exact absurd hempty.1 (Nat.ne_of_gt hgt)

/-! ### The calls of the sink -/

/-- The calls of a sink for a list of payloads. -/
def callLog (sink : Sink σ) (s : σ) : List Bytes → List SinkCall
  | [] => []
  | payload :: payloads =>
      { payload, returned := (sink s payload).1 } :: callLog sink (sink s payload).2 payloads

/-- The state of a sink after a list of payloads. -/
def sinkAfter (sink : Sink σ) (s : σ) (payloads : List Bytes) : σ :=
  payloads.foldl (fun s payload => (sink s payload).2) s

theorem callLog_payload (sink : Sink σ) (s : σ) (payloads : List Bytes) :
    (callLog sink s payloads).map (·.payload) = payloads := by
  induction payloads generalizing s with
  | nil => rfl
  | cons payload payloads ih => rw [callLog, List.map_cons, ih]

theorem callLog_append (sink : Sink σ) (s : σ) (payloads payloads' : List Bytes) :
    callLog sink s (payloads ++ payloads') =
      callLog sink s payloads ++ callLog sink (sinkAfter sink s payloads) payloads' := by
  induction payloads generalizing s with
  | nil => rfl
  | cons payload payloads ih =>
    rw [List.cons_append, callLog, callLog, List.cons_append, ih]
    rfl

/-- The result of `onReceive` is false exactly if some call of the sink returned false. -/
def Outcome.Honest (o : Outcome) : Prop := o.result = o.calls.all (·.returned)

theorem Loop.callAll_spec (sink : Sink σ) (payloads : List Bytes) {l : Loop σ}
    (h : l.out.Honest) :
    (l.callAll sink payloads).out.Honest ∧
    (l.callAll sink payloads).out.calls = l.out.calls ++ callLog sink l.parser.mSink payloads ∧
    (l.callAll sink payloads).parser.mSink = sinkAfter sink l.parser.mSink payloads := by
  induction payloads generalizing l with
  | nil => exact ⟨h, (List.append_nil _).symm, rfl⟩
  | cons payload payloads ih =>
    have hstep : (l.callSink sink payload).out.Honest := by
      unfold Outcome.Honest at h ⊢
      simp only [Loop.callSink, List.all_append, List.all_cons, List.all_nil, Bool.and_true, ← h]
      cases (sink l.parser.mSink payload).1 <;> simp
    obtain ⟨hhonest, hcalls, hsink⟩ := ih hstep
    refine ⟨hhonest, ?_, hsink⟩
    rw [Loop.callAll_cons, hcalls, callLog]
    simp only [Loop.callSink, List.append_assoc, List.singleton_append]

/-! ### Runs -/

/-- A parser that was given `data`, in any number of calls, has passed `payloads` to its sink.
What is still in the buffer accounts for the other packets of the stream. -/
structure Delivers (sink : Sink σ) (p : Parser σ) (data : Bytes) (payloads : List Bytes)
    (p' : Parser σ) : Prop where
  mSink : p'.mSink = sinkAfter sink p.mSink payloads
  frames : payloads ++ packets.frames p'.mBuffer = packets.frames (p.mBuffer ++ data)
  rest : packets.rest p'.mBuffer = packets.rest (p.mBuffer ++ data)
  pending : Pending p'.mBuffer
  suffix : p'.mBuffer <:+ p.mBuffer ++ data

theorem Delivers.refl {sink : Sink σ} {p : Parser σ} (h : Pending p.mBuffer) :
    Delivers sink p [] [] p where
  mSink := rfl
  frames := by rw [List.append_nil, List.nil_append]
  rest := by rw [List.append_nil]
  pending := h
  suffix := by simp

theorem Delivers.trans {sink : Sink σ} {p p' p'' : Parser σ} {data data' : Bytes}
    {payloads payloads' : List Bytes} (h : Delivers sink p data payloads p')
    (h' : Delivers sink p' data' payloads' p'') :
    Delivers sink p (data ++ data') (payloads ++ payloads') p'' where
  mSink := by
    rw [h'.mSink, h.mSink]
    exact (List.foldl_append ..).symm
  frames := by
    rw [List.append_assoc, h'.frames, Framing.frames_append, ← List.append_assoc, h.frames, h.rest,
      ← Framing.frames_append, List.append_assoc]
  rest := by rw [h'.rest, Framing.rest_append, h.rest, ← Framing.rest_append, List.append_assoc]
  pending := h'.pending
  suffix := by
    obtain ⟨pre, hpre⟩ := h.suffix
    refine h'.suffix.trans ⟨pre, ?_⟩
    rw [← List.append_assoc, hpre, List.append_assoc]

theorem onReceive_nil (sink : Sink σ) (p : Parser σ) :
    onReceive sink p [] = ({ result := true, calls := [] }, p) := by
  simp only [onReceive, receiveLoop_nil]

/-- One call. -/
theorem onReceive_delivers (sink : Sink σ) {p : Parser σ} (hpending : Pending p.mBuffer)
    (data : Bytes) : ∃ payloads, Delivers sink p data payloads (onReceive sink p data).2 ∧
      (onReceive sink p data).1.Honest ∧
      (onReceive sink p data).1.calls = callLog sink p.mSink payloads := by
  by_cases hdata : data = []
  · subst hdata
    rw [onReceive_nil]
    exact ⟨[], Delivers.refl hpending, rfl, rfl⟩
  · have hspec := receiveLoop_spec sink hdata
      (l := { parser := p, out := { result := true, calls := [] } }) rfl hpending
    simp only [onReceive, hspec]
    by_cases hstall : Stalls p.mBuffer data
    · rw [if_pos hstall]
      exact ⟨[], ⟨rfl, List.nil_append _, rfl, .inr hstall.2.2, List.suffix_refl _⟩, rfl, rfl⟩
    · rw [if_neg hstall]
      obtain ⟨hhonest, hcalls, hsink⟩ := Loop.callAll_spec sink
        (packets.frames (p.mBuffer ++ data))
        (l := { parser := p, out := { result := true, calls := [] } }) rfl
      have hinc := Framing.rest_incomplete (F := packets) (p.mBuffer ++ data)
      refine ⟨packets.frames (p.mBuffer ++ data),
        ⟨hsink, ?_, ?_, .inl hinc, Framing.rest_suffix _⟩, hhonest, ?_⟩
      · rw [Loop.setBuffer_mBuffer, Framing.frames_of_incomplete hinc, List.append_nil]
      · rw [Loop.setBuffer_mBuffer, Framing.rest_of_incomplete hinc]
      · rw [Loop.setBuffer_out, hcalls, List.nil_append]

/-- The calls of the sink in a run. -/
def delivered (outs : List Outcome) : List SinkCall := outs.flatMap (·.calls)

/-- A run, whatever the chunks. -/
theorem feed_delivers (sink : Sink σ) {p : Parser σ} (hpending : Pending p.mBuffer)
    (chunks : List Bytes) :
    ∃ payloads, Delivers sink p chunks.flatten payloads (feed sink p chunks).2 ∧
      (∀ o ∈ (feed sink p chunks).1, o.Honest) ∧
      delivered (feed sink p chunks).1 = callLog sink p.mSink payloads := by
  induction chunks generalizing p with
  | nil => exact ⟨[], Delivers.refl hpending, fun _ h => absurd h List.not_mem_nil, rfl⟩
  | cons chunk chunks ih =>
    obtain ⟨payloads, hdel, hhonest, hcalls⟩ := onReceive_delivers sink hpending chunk
    obtain ⟨payloads', hdel', hhonest', hcalls'⟩ := ih hdel.pending
    refine ⟨payloads ++ payloads', hdel.trans hdel', ?_, ?_⟩
    · exact List.forall_mem_cons.mpr ⟨hhonest, hhonest'⟩
    · rw [callLog_append, ← hdel.mSink, ← hcalls, ← hcalls']
      rfl

/-- A fresh parser has passed on the packets of the stream, but for one that is in the
buffer. -/
theorem feed_init (sink : Sink σ) (s : σ) (chunks : List Bytes) :
    ∃ payloads, delivered (feed sink (Parser.init s) chunks).1 = callLog sink s payloads ∧
      payloads ++ packets.frames (feed sink (Parser.init s) chunks).2.mBuffer =
        packets.frames chunks.flatten ∧
      packets.rest (feed sink (Parser.init s) chunks).2.mBuffer = packets.rest chunks.flatten ∧
      Pending (feed sink (Parser.init s) chunks).2.mBuffer ∧
      (feed sink (Parser.init s) chunks).2.mBuffer <:+ chunks.flatten := by
  obtain ⟨payloads, hdel, -, hcalls⟩ :=
    feed_delivers sink (p := Parser.init s) (.inl Framing.incomplete_nil) chunks
  exact ⟨payloads, hcalls, hdel.frames, hdel.rest, hdel.pending, hdel.suffix⟩

end Goldfish.Devices.Qemud
