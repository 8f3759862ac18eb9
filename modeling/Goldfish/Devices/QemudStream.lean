import Goldfish.Devices.QemudParser
import Mathlib.Data.List.Induction

/-!
# Goldfish.Devices.QemudStream

Whole streams through the qemud `Parser`. A run that stalls at its end is recognised
from the stream and the cut alone (`feed_emptyPacket_iff`), so two cuts of one stream can be
compared (`feed_cuts_agree_iff`). What `sendAsync` writes for messages that are not empty
never ends in a stall, and arrives as it was sent under any cut
(`feed_sent`).
-/

namespace Goldfish.Devices.Qemud

open Goldfish.Lib

variable {σ : Type}

/-! ### Runs that end in a stall -/

theorem feed_concat (sink : Sink σ) (p : Parser σ) (chunks : List Bytes) (chunk : Bytes) :
    (feed sink p (chunks ++ [chunk])).2 = (onReceive sink (feed sink p chunks).2 chunk).2 := by
  induction chunks generalizing p with
  | nil => rfl
  | cons c chunks ih =>
    simp only [List.cons_append, feed]
    exact ih _

theorem feed_length (sink : Sink σ) (p : Parser σ) (chunks : List Bytes) :
    (feed sink p chunks).1.length = chunks.length := by
  induction chunks generalizing p with
  | nil => rfl
  | cons c chunks ih =>
    simp only [feed, List.length_cons]
    rw [ih]

/-- The last chunk that is not empty. -/
def lastChunk (chunks : List Bytes) : Bytes :=
  ((chunks.filter (fun chunk => !chunk.isEmpty)).getLast?).getD []

@[simp] theorem lastChunk_concat_nil (chunks : List Bytes) :
    lastChunk (chunks ++ [[]]) = lastChunk chunks := by
  simp [lastChunk]

theorem lastChunk_concat (chunks : List Bytes) {chunk : Bytes} (h : chunk ≠ []) :
    lastChunk (chunks ++ [chunk]) = chunk := by
  simp [lastChunk, h]

/-- The last packet of the stream has no payload, and nothing follows it. -/
def EndsWithEmptyPacket (s : Bytes) : Prop :=
  ∃ pre hdr, s = pre ++ hdr ∧ packets.Whole pre ∧ EmptyPacket hdr

/-- The stream ends with a packet without payload, and its header is cut. -/
def SplitsEmptyPacket (chunks : List Bytes) : Prop :=
  EndsWithEmptyPacket chunks.flatten ∧ (lastChunk chunks).length < kSizeSize

/-- Whether a chunk makes the parser stall can be told from the stream. -/
theorem stalls_iff {buf s chunk : Bytes} (hpending : Pending buf)
    (hrest : packets.rest buf = packets.rest s) (hchunk : chunk ≠ []) :
    Stalls buf chunk ↔ EndsWithEmptyPacket (s ++ chunk) ∧ chunk.length < kSizeSize := by
  constructor
  · intro hstalls
    obtain ⟨hne, -, hempty⟩ := hstalls
    have hlen := hempty.1
    have hpos := List.length_pos_of_ne_nil hne
    have hpos' := List.length_pos_of_ne_nil hchunk
    rw [List.length_append] at hlen
    have hinc : packets.Incomplete buf := incomplete_iff.mpr (.inl (by omega))
    rw [Framing.rest_of_incomplete hinc] at hrest
    obtain ⟨pre, hwhole, hs⟩ := Framing.exists_whole (F := packets) s
    refine ⟨⟨pre, buf ++ chunk, ?_, hwhole, hempty⟩, by omega⟩
    rw [← List.append_assoc, hrest, ← hs]
  · intro hsplits
    obtain ⟨⟨pre, hdr, hs, hwhole, hempty⟩, hlen⟩ := hsplits
    -- the header begins before the chunk
    obtain ⟨part, rfl, rfl⟩ : ∃ part, hdr = part ++ chunk ∧ s = pre ++ part := by
      rcases List.append_eq_append_iff.mp hs with ⟨part, hpre, hchk⟩ | ⟨part, hs', hhdr⟩
      · have hlong := congrArg List.length hchk
        rw [List.length_append, hempty.1] at hlong
        omega
      · exact ⟨part, hhdr, hs'⟩
    have hsum := hempty.1
    rw [List.length_append] at hsum
    have hpos := List.length_pos_of_ne_nil hchunk
    have hinc : packets.Incomplete part := incomplete_iff.mpr (.inl (by omega))
    rw [Framing.rest_append_of_whole hwhole, Framing.rest_of_incomplete hinc] at hrest
    have hpart : part ≠ [] := by
      rintro rfl
      rw [List.length_nil] at hsum
      omega
    rcases hpending with hbuf | hbuf
    · rw [Framing.rest_of_incomplete hbuf] at hrest
      exact ⟨hrest ▸ hpart, hchunk, hrest ▸ hempty⟩
    · exact absurd (hrest.symm.trans hbuf.whole) hpart

/-- After a call the buffer holds a packet without payload exactly if the call stalled. -/
theorem onReceive_emptyPacket (sink : Sink σ) {p : Parser σ} (hpending : Pending p.mBuffer)
    {data : Bytes} (hdata : data ≠ []) :
    EmptyPacket (onReceive sink p data).2.mBuffer ↔ Stalls p.mBuffer data := by
  have hspec := receiveLoop_spec sink hdata
    (l := { parser := p, out := { result := true, calls := [] } }) rfl hpending
  simp only [onReceive, hspec]
  by_cases hstall : Stalls p.mBuffer data
  · rw [if_pos hstall]
    exact ⟨fun _ => hstall, fun h => h.2.2⟩
  · rw [if_neg hstall, Loop.setBuffer_mBuffer]
    exact ⟨fun h => absurd (Framing.rest_incomplete _) h.not_incomplete, fun h => absurd h hstall⟩

theorem feed_emptyPacket_iff (sink : Sink σ) (s : σ) (chunks : List Bytes) :
    EmptyPacket (feed sink (Parser.init s) chunks).2.mBuffer ↔ SplitsEmptyPacket chunks := by
  induction chunks using List.reverseRecOn with
  | nil =>
    refine ⟨fun h => absurd (show 0 = kSizeSize from h.1) (by decide), ?_⟩
    intro hsplits
    obtain ⟨⟨pre, hdr, hs, -, hempty⟩, -⟩ := hsplits
    have hnil := (List.append_eq_nil_iff.mp hs.symm).2
    rw [hnil] at hempty
    exact absurd hempty.1 (by decide)
  | append_singleton chunks chunk ih =>
    obtain ⟨_, -, -, hrest, hpending, -⟩ := feed_init sink s chunks
    rw [feed_concat, SplitsEmptyPacket, List.flatten_append, List.flatten_singleton]
    by_cases hchunk : chunk = []
    · subst hchunk
      rw [onReceive_nil, List.append_nil, lastChunk_concat_nil]
      exact ih
    · rw [onReceive_emptyPacket sink hpending hchunk, stalls_iff hpending hrest hchunk,
        lastChunk_concat chunks hchunk]

/-- Without a stall every packet is delivered as soon as it is complete. -/
theorem feed_of_not_splits (sink : Sink σ) (s : σ) {chunks : List Bytes}
    (h : ¬ SplitsEmptyPacket chunks) :
    delivered (feed sink (Parser.init s) chunks).1 = callLog sink s (packets.frames chunks.flatten) ∧
    (feed sink (Parser.init s) chunks).2.mBuffer = packets.rest chunks.flatten := by
  obtain ⟨payloads, hcalls, hframes, hrest, hpending, -⟩ := feed_init sink s chunks
  rw [← feed_emptyPacket_iff sink s] at h
  have hinc := hpending.resolve_right h
  rw [Framing.frames_of_incomplete hinc, List.append_nil] at hframes
  rw [Framing.rest_of_incomplete hinc] at hrest
  exact ⟨hframes ▸ hcalls, hrest⟩

/-- After a stall the last packet is missing and its header is in the buffer. -/
theorem feed_of_splits (sink : Sink σ) (s : σ) {chunks : List Bytes}
    (h : SplitsEmptyPacket chunks) :
    ∃ payloads, delivered (feed sink (Parser.init s) chunks).1 = callLog sink s payloads ∧
      payloads ++ [[]] = packets.frames chunks.flatten ∧
      EmptyPacket (feed sink (Parser.init s) chunks).2.mBuffer ∧
      (feed sink (Parser.init s) chunks).2.mBuffer <:+ chunks.flatten := by
  obtain ⟨payloads, hcalls, hframes, -, -, hsuffix⟩ := feed_init sink s chunks
  have hempty := (feed_emptyPacket_iff sink s chunks).mpr h
  rw [hempty.frames] at hframes
  exact ⟨payloads, hcalls, hframes, hempty, hsuffix⟩

/-- **Two ways of cutting a stream lead to the same calls and the same buffer exactly if both or
neither of them end with a packet without payload whose header is cut; and a run has
delivered everything that is complete exactly if it does not.** -/
theorem feed_cuts_agree_iff (sink : Sink σ) (s : σ) (chunks chunks' : List Bytes)
    (h : chunks.flatten = chunks'.flatten) :
    ((delivered (feed sink (Parser.init s) chunks).1 =
          delivered (feed sink (Parser.init s) chunks').1 ∧
        (feed sink (Parser.init s) chunks).2.mBuffer =
          (feed sink (Parser.init s) chunks').2.mBuffer) ↔
      (SplitsEmptyPacket chunks ↔ SplitsEmptyPacket chunks')) ∧
    ((delivered (feed sink (Parser.init s) chunks).1).map (·.payload) =
      packets.frames chunks.flatten ↔ ¬ SplitsEmptyPacket chunks) := by
  constructor
  · constructor
    · intro hagree
      obtain ⟨-, hbuf⟩ := hagree
      rw [← feed_emptyPacket_iff sink s, ← feed_emptyPacket_iff sink s, hbuf]
    · intro hiff
      by_cases hsplit : SplitsEmptyPacket chunks
      · obtain ⟨payloads, hcalls, hframes, hempty, hsuffix⟩ := feed_of_splits sink s hsplit
        obtain ⟨payloads', hcalls', hframes', hempty', hsuffix'⟩ :=
          feed_of_splits sink s (hiff.mp hsplit)
        rw [← h] at hframes' hsuffix'
        have hpayloads : payloads = payloads' :=
          List.append_cancel_right (hframes.trans hframes'.symm)
        refine ⟨by rw [hcalls, hcalls', hpayloads], ?_⟩
        -- both buffers are the last four bytes of the stream
        exact (List.suffix_of_suffix_length_le hsuffix hsuffix'
          (Nat.le_of_eq (hempty.1.trans hempty'.1.symm))).eq_of_length
            (hempty.1.trans hempty'.1.symm)
      · obtain ⟨hcalls, hbuf⟩ := feed_of_not_splits sink s hsplit
        obtain ⟨hcalls', hbuf'⟩ := feed_of_not_splits sink s (fun h' => hsplit (hiff.mpr h'))
        rw [hcalls, hcalls', hbuf, hbuf', h]
        exact ⟨rfl, rfl⟩
  · constructor
    · intro hall hsplit
      obtain ⟨payloads, hcalls, hframes, -⟩ := feed_of_splits sink s hsplit
      rw [hcalls, callLog_payload, ← hframes] at hall
      exact absurd (congrArg List.length hall) (by simp)
    · intro hsplit
      rw [(feed_of_not_splits sink s hsplit).1, callLog_payload]

/-- A packet with one byte of payload, in one chunk and cut inside its header. -/
theorem feed_cuts_agree_one_byte :
    delivered (feed (fun _ _ => (true, ())) (Parser.init ()) [[0x30, 0x30, 0x30, 0x31, 0x41]]).1 =
      delivered (feed (fun _ _ => (true, ())) (Parser.init ())
        [[0x30], [0x30, 0x30, 0x31, 0x41]]).1 ∧
    (feed (fun _ _ => (true, ())) (Parser.init ()) [[0x30, 0x30, 0x30, 0x31, 0x41]]).2.mBuffer =
      (feed (fun _ _ => (true, ())) (Parser.init ()) [[0x30], [0x30, 0x30, 0x31, 0x41]]).2.mBuffer :=
  (feed_cuts_agree_iff _ () [[0x30, 0x30, 0x30, 0x31, 0x41]] [[0x30], [0x30, 0x30, 0x31, 0x41]]
    rfl).1.mpr ⟨fun h => absurd h.2 (by decide), fun h => absurd h.2 (by decide)⟩

/-- The header `0000` is a whole packet. In one chunk it is delivered, cut behind its first
byte it is left in the buffer. -/
theorem feed_cuts_disagree :
    ([[0x30, 0x30, 0x30, 0x30]] : List Bytes).flatten = [[0x30], [0x30, 0x30, 0x30]].flatten ∧
    delivered (feed (fun _ _ => (true, ())) (Parser.init ()) [[0x30, 0x30, 0x30, 0x30]]).1 ≠
      delivered (feed (fun _ _ => (true, ())) (Parser.init ()) [[0x30], [0x30, 0x30, 0x30]]).1 ∧
    (feed (fun _ _ => (true, ())) (Parser.init ()) [[0x30, 0x30, 0x30, 0x30]]).2.mBuffer ≠
      (feed (fun _ _ => (true, ())) (Parser.init ()) [[0x30], [0x30, 0x30, 0x30]]).2.mBuffer := by
  have hsize : decodeRequestSize [0x30, 0x30, 0x30, 0x30] = 0 := by decide
  have hone : feed (fun _ _ => (true, ())) (Parser.init ()) [[0x30, 0x30, 0x30, 0x30]] =
      ([⟨true, [⟨[], true⟩]⟩], ⟨(), []⟩) := by
    simp [feed, onReceive, receiveLoop, wholePackets, Parser.init, Loop.setBuffer, Loop.callSink,
      kSizeSize, hsize]
  have htwo : feed (fun _ _ => (true, ())) (Parser.init ()) [[0x30], [0x30, 0x30, 0x30]] =
      ([⟨true, []⟩, ⟨true, []⟩], ⟨(), [0x30, 0x30, 0x30, 0x30]⟩) := by
    simp [feed, onReceive, receiveLoop, wholePackets, Parser.init, Loop.setBuffer, kSizeSize]
  rw [hone, htwo]
  exact ⟨rfl, by decide, by decide⟩

/-! ### What is sent is received -/

/-- The bytes `sendAsync` puts on the wire for some messages. -/
def sentBytes (msgs : List Bytes) : Bytes := (msgs.flatMap sendAsync).flatten

theorem sentBytes_cons (msg : Bytes) (msgs : List Bytes) :
    sentBytes (msg :: msgs) =
      encodeRequestSize (UInt32.ofNat msg.length) ++ msg ++ sentBytes msgs := by
  simp [sentBytes, sendAsync]

/-- A message that is sent is a packet. -/
theorem packets_next_sent {msg : Bytes} (h : msg.length < 2 ^ 31) (more : Bytes) :
    packets.next (encodeRequestSize (UInt32.ofNat msg.length) ++ msg ++ more) = some (msg, more) := by
  have hsize : (UInt32.ofNat msg.length).toNat = msg.length := by
    rw [UInt32.toNat_ofNat']
    exact Nat.mod_eq_of_lt (by omega)
  refine packets_next (encodeRequestSize_length _) ?_
  have hsmall : (UInt32.ofNat msg.length).toNat < 2 ^ 31 := by omega
  have hdec := decodeRequestSize_encode hsmall []
  rwa [List.append_nil, hsize] at hdec

theorem deframe_sentBytes {msgs : List Bytes} (h : ∀ msg ∈ msgs, msg.length < 2 ^ 31) :
    packets.frames (sentBytes msgs) = msgs ∧ packets.Whole (sentBytes msgs) := by
  induction msgs with
  | nil =>
    exact ⟨Framing.frames_of_incomplete Framing.incomplete_nil,
      Framing.rest_of_incomplete Framing.incomplete_nil⟩
  | cons msg msgs ih =>
    have hnext := packets_next_sent (h msg List.mem_cons_self) (sentBytes msgs)
    obtain ⟨hframes, hwhole⟩ := ih (fun m hm => h m (List.mem_cons_of_mem _ hm))
    rw [sentBytes_cons, Framing.frames_of_next hnext, hframes]
    exact ⟨rfl, (Framing.rest_of_next hnext).trans hwhole⟩

/-- A stream of messages that are not empty does not end with an empty packet. -/
theorem not_endsWithEmptyPacket {msgs : List Bytes}
    (h : ∀ msg ∈ msgs, 1 ≤ msg.length ∧ msg.length ≤ 2 ^ 31 - 1) :
    ¬ EndsWithEmptyPacket (sentBytes msgs) := by
  intro hends
  obtain ⟨pre, hdr, hs, hwhole, hempty⟩ := hends
  have hframes := (deframe_sentBytes (fun msg hm => Nat.lt_of_le_of_lt (h msg hm).2 (by decide))).1
  rw [hs, Framing.frames_append_of_whole hwhole, hempty.frames] at hframes
  have hmem : [] ∈ msgs := by
    rw [← hframes]
    exact List.mem_append_right _ List.mem_cons_self
  exact absurd (h [] hmem).1 (by decide)

/-- **Messages sent with `sendAsync` arrive one by one as they were sent, however the bytes are cut
into chunks; the buffer is empty at the end; and a call of `onReceive` returns false exactly
if a call of the sink did.** -/
theorem feed_sent (sink : Sink σ) (s : σ) (msgs : List Bytes)
    (hmsgs : ∀ msg ∈ msgs, 1 ≤ msg.length ∧ msg.length ≤ 2 ^ 31 - 1) (chunks : List Bytes)
    (hchunks : chunks.flatten = (msgs.flatMap sendAsync).flatten) :
    (delivered (feed sink (Parser.init s) chunks).1).map (·.payload) = msgs ∧
    (feed sink (Parser.init s) chunks).2.mBuffer = [] ∧
    (feed sink (Parser.init s) chunks).1.length = chunks.length ∧
    ∀ o ∈ (feed sink (Parser.init s) chunks).1,
      o.result = false ↔ ∃ call ∈ o.calls, call.returned = false := by
  have hlt : ∀ msg ∈ msgs, msg.length < 2 ^ 31 := fun msg hm =>
    Nat.lt_of_le_of_lt (hmsgs msg hm).2 (by decide)
  obtain ⟨hframes, hwhole⟩ := deframe_sentBytes hlt
  have hsplit : ¬ SplitsEmptyPacket chunks := by
    intro h
    have hends := h.1
    rw [hchunks] at hends
    exact not_endsWithEmptyPacket hmsgs hends
  obtain ⟨hcalls, hbuf⟩ := feed_of_not_splits sink s hsplit
  obtain ⟨_, -, hhonest, -⟩ :=
    feed_delivers sink (p := Parser.init s) (.inl Framing.incomplete_nil) chunks
  refine ⟨?_, ?_, feed_length sink _ chunks, fun o ho => ?_⟩
  · rw [hcalls, callLog_payload, hchunks]
    exact hframes
  · rw [hbuf, hchunks]
    exact hwhole
  · rw [hhonest o ho, List.all_eq_false]
    simp

/-- Two messages in three chunks, for a sink that refuses the second one. -/
theorem feed_sent_three_chunks :
    (delivered (feed (fun n _ => (n == 0, n + 1)) (Parser.init 0)
      [[0x30, 0x30], [0x30, 0x32, 0x07], [0x08, 0x30, 0x30, 0x30, 0x31, 0x09]]).1).map (·.payload) =
      [[0x07, 0x08], [0x09]] :=
  (feed_sent (fun n _ => (n == 0, n + 1)) 0 [[0x07, 0x08], [0x09]] (by decide) _ (by decide)).1

end Goldfish.Devices.Qemud
