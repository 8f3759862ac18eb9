import Goldfish.Lib.Framing
import Goldfish.Lib.LittleEndian

/-!
# Goldfish.Adb.MessageLogger

The logger of adb messages (`AdbMesageLogger.cpp`): it gets the bytes of a stream in
chunks, and logs every packet when it is complete.

The packets of a stream are those of a `Framing` (`packets`). The loop of `observe` logs
the packets that are in its buffer, up to the first one whose magic is wrong, and keeps
the rest (`packetLoop_log`, `packetLoop_rest`). So what is logged depends on the bytes
alone (`packets_not_chunks`).
-/

namespace Goldfish.Adb

open Goldfish.Lib

/-- What is sent over the connection. -/
abbrev Bytes := List UInt8

/-- `amessage`, the header of a packet. -/
structure amessage where
  command : UInt32
  arg0 : UInt32
  arg1 : UInt32
  data_length : UInt32
  data_check : UInt32
  magic : UInt32
  deriving DecidableEq, Repr

/-- `sizeof(amessage)`. -/
def amessage_size : Nat := 24

/-- `apacket`, a header and what follows it. -/
structure apacket where
  message : amessage
  data : Bytes
  deriving DecidableEq, Repr

/-- The 32 bits at an offset. -/
def word (bytes : Bytes) (offset : Nat) : UInt32 := UInt32.ofNat (ofLE ((bytes.drop offset).take 4))

/-- The header that the bytes begin with. -/
def header (bytes : Bytes) : amessage :=
  ⟨word bytes 0, word bytes 4, word bytes 8, word bytes 12, word bytes 16, word bytes 20⟩

/-- The magic number of a header is its command with all bits turned. -/
def isValidHeader (message : amessage) : Bool := message.magic ^^^ 0xffffffff = message.command

/-- A line of the log. -/
inductive Entry where
  | packet (mPrefix : String) (packet : apacket)
  /-- "Adb stream out of sync, disabling further logging". -/
  | outOfSync
  deriving DecidableEq, Repr

/-- An `AdbMessageLogger`, with what it has logged. -/
structure AdbMessageLogger where
  mPrefix : String
  mRawBytesInFlight : Bytes
  mOutOfSync : Bool
  /-- What was logged. -/
  log : List Entry
  deriving DecidableEq, Repr

namespace AdbMessageLogger

/-- A logger that has seen nothing. -/
def new (mPrefix : String) : AdbMessageLogger := ⟨mPrefix, [], false, []⟩

/-- The packet that the buffer begins with. -/
def first (bytes : Bytes) : apacket :=
  ⟨header bytes, (bytes.drop amessage_size).take (header bytes).data_length.toNat⟩

/-- A full packet is logged and removed from the buffer. -/
def logPacket (logger : AdbMessageLogger) : AdbMessageLogger :=
  let packet := first logger.mRawBytesInFlight
  let mOutOfSync := !isValidHeader packet.message
  { logger with
    mRawBytesInFlight := logger.mRawBytesInFlight.drop (amessage_size + packet.message.data_length.toNat)
    mOutOfSync := mOutOfSync
    log := logger.log ++ .packet logger.mPrefix packet :: if mOutOfSync then [.outOfSync] else [] }

/-- The loop of `observe`. -/
def packetLoop (logger : AdbMessageLogger) : AdbMessageLogger :=
  if _h : amessage_size ≤ logger.mRawBytesInFlight.length ∧ logger.mOutOfSync = false then
    if logger.mRawBytesInFlight.length - amessage_size < (header logger.mRawBytesInFlight).data_length.toNat then
      logger
    else packetLoop logger.logPacket
  else logger
termination_by logger.mRawBytesInFlight.length
decreasing_by
  have hsize : amessage_size = 24 := rfl
  rw [logPacket, List.length_drop]
  omega

/-- `observe`: nothing more is kept once the logger is out of step. -/
def observe (logger : AdbMessageLogger) (data : Bytes) : AdbMessageLogger :=
  if logger.mOutOfSync then logger
  else packetLoop { logger with mRawBytesInFlight := logger.mRawBytesInFlight ++ data }

/-! ### The packets of a stream -/

/-- The packet that a stream begins with, if it is complete. -/
def nextPacket (s : Bytes) : Option (apacket × Bytes) :=
  if amessage_size + (header s).data_length.toNat ≤ s.length then
    some (first s, s.drop (amessage_size + (header s).data_length.toNat))
  else none

theorem word_append {s : Bytes} {offset : Nat} (h : offset + 4 ≤ s.length) (t : Bytes) :
    word (s ++ t) offset = word s offset := by
  rw [word, word, List.drop_append_of_le_length (by omega),
    List.take_append_of_le_length (by rw [List.length_drop]; omega)]

/-- A header is complete with its own bytes. -/
theorem header_append {s : Bytes} (h : amessage_size ≤ s.length) (t : Bytes) : header (s ++ t) = header s := by
  have hsize : amessage_size = 24 := rfl
  simp only [header]
  rw [word_append (by omega), word_append (by omega), word_append (by omega), word_append (by omega),
    word_append (by omega), word_append (by omega)]

/-- What is behind a packet does not matter to it. -/
theorem first_append {s : Bytes} (h : amessage_size + (header s).data_length.toNat ≤ s.length) (t : Bytes) :
    first (s ++ t) = first s := by
  have hheader : header (s ++ t) = header s := header_append (by omega) t
  rw [first, first, hheader, List.drop_append_of_le_length (by omega),
    List.take_append_of_le_length (by rw [List.length_drop]; omega)]

theorem nextPacket_eq_some {s r : Bytes} {p : apacket} :
    nextPacket s = some (p, r) ↔ amessage_size + (header s).data_length.toNat ≤ s.length ∧ p = first s ∧
      r = s.drop (amessage_size + (header s).data_length.toNat) := by
  unfold nextPacket
  split
  · rename_i hlen
    rw [Option.some.injEq, Prod.mk.injEq]
    exact ⟨fun h => ⟨hlen, h.1.symm, h.2.symm⟩, fun h => ⟨h.2.1.symm, h.2.2.symm⟩⟩
  · rename_i hlen
    exact iff_of_false (fun h => by cases h) fun h => hlen h.1

/-- The packets as a framing. -/
def packets : Framing UInt8 apacket where
  next := nextPacket
  next_split := by
    intro s p r h
    obtain ⟨hlen, rfl, rfl⟩ := nextPacket_eq_some.mp h
    have hsplit := (List.take_append_drop (amessage_size + (header s).data_length.toNat) s).symm
    have htake : (s.take (amessage_size + (header s).data_length.toNat)).length =
        amessage_size + (header s).data_length.toNat := List.length_take_of_le hlen
    have hheader : header (s.take (amessage_size + (header s).data_length.toNat)) = header s := by
      conv_rhs => rw [hsplit]
      exact (header_append (by rw [htake]; exact Nat.le_add_right ..) _).symm
    refine ⟨_, ?_, hsplit, nextPacket_eq_some.mpr ⟨?_, ?_, ?_⟩⟩
    · intro hnil
      rw [hnil] at htake
      exact absurd htake (by simp [amessage_size]; omega)
    · rw [hheader, htake]
    · conv_lhs => rw [hsplit]
      exact first_append (by rw [hheader, htake]) _
    · rw [hheader, List.drop_eq_nil_of_le (by rw [htake])]
  next_append := by
    intro s p r t h
    obtain ⟨hlen, rfl, rfl⟩ := nextPacket_eq_some.mp h
    have hheader : header (s ++ t) = header s := header_append (by omega) t
    refine nextPacket_eq_some.mpr ⟨?_, (first_append hlen t).symm, ?_⟩
    · rw [hheader, List.length_append]
      omega
    · rw [hheader, List.drop_append_of_le_length hlen]

/-! ### What is logged -/

/-- All packets up to the first one with a wrong magic. -/
def logged (mPrefix : String) : List apacket → List Entry
  | [] => []
  | packet :: packets =>
    .packet mPrefix packet :: if isValidHeader packet.message then logged mPrefix packets else [.outOfSync]

/-- The packets are all valid. -/
def InSync (ps : List apacket) : Prop := ∀ p ∈ ps, isValidHeader p.message = true

instance (ps : List apacket) : Decidable (InSync ps) := inferInstanceAs (Decidable (∀ p ∈ ps, _))

theorem logged_append (mPrefix : String) (ps qs : List apacket) :
    logged mPrefix (ps ++ qs) = logged mPrefix ps ++ if InSync ps then logged mPrefix qs else [] := by
  induction ps with
  | nil => simp [logged, InSync]
  | cons p ps ih =>
    rw [List.cons_append, logged, logged]
    by_cases hp : isValidHeader p.message = true
    · have hsync : InSync (p :: ps) ↔ InSync ps := by simp [InSync, hp]
      rw [if_pos hp, if_pos hp, ih, List.cons_append]
      simp only [hsync]
    · rw [if_neg hp, if_neg hp, if_neg fun h => hp (h p List.mem_cons_self), List.append_nil]

/-- The state of a logger that was given a stream. -/
structure Read (mPrefix : String) (stream : Bytes) (logger : AdbMessageLogger) : Prop where
  prefix_eq : logger.mPrefix = mPrefix
  log : logger.log = logged mPrefix (packets.frames stream)
  outOfSync : logger.mOutOfSync = false ↔ InSync (packets.frames stream)
  rest : logger.mOutOfSync = false → logger.mRawBytesInFlight = packets.rest stream

theorem packetLoop_of_outOfSync {logger : AdbMessageLogger} (h : logger.mOutOfSync = true) :
    packetLoop logger = logger := by
  rw [packetLoop, dif_neg (by simp [h])]

theorem packetLoop_of_incomplete {logger : AdbMessageLogger} (h : packets.Incomplete logger.mRawBytesInFlight) :
    packetLoop logger = logger := by
  have hlen : ¬ amessage_size + (header logger.mRawBytesInFlight).data_length.toNat ≤
      logger.mRawBytesInFlight.length := by
    intro hlen
    have hnext := nextPacket_eq_some.mpr ⟨hlen, rfl, rfl⟩
    exact absurd (hnext.symm.trans h) (by simp)
  rw [packetLoop]
  split
  · rw [if_pos (by omega)]
  · rfl

/-- A packet in the buffer is logged, and the loop goes on behind it. -/
theorem packetLoop_of_next {logger : AdbMessageLogger} (hsync : logger.mOutOfSync = false) {p : apacket} {r : Bytes}
    (h : packets.next logger.mRawBytesInFlight = some (p, r)) :
    packetLoop logger = packetLoop { logger with
      mRawBytesInFlight := r
      mOutOfSync := !isValidHeader p.message
      log := logger.log ++ .packet logger.mPrefix p :: if !isValidHeader p.message then [.outOfSync] else [] } := by
  obtain ⟨hlen, rfl, rfl⟩ := nextPacket_eq_some.mp h
  rw [packetLoop, dif_pos ⟨by omega, hsync⟩, if_neg (by omega)]
  rfl

/-- **The loop** logs the packets of its buffer and keeps the rest. -/
theorem packetLoop_spec (s : Bytes) (logger : AdbMessageLogger) (hraw : logger.mRawBytesInFlight = s)
    (hsync : logger.mOutOfSync = false) :
    (packetLoop logger).mPrefix = logger.mPrefix ∧
      (packetLoop logger).log = logger.log ++ logged logger.mPrefix (packets.frames s) ∧
      ((packetLoop logger).mOutOfSync = false ↔ InSync (packets.frames s)) ∧
      ((packetLoop logger).mOutOfSync = false → (packetLoop logger).mRawBytesInFlight = packets.rest s) := by
  induction s using packets.induction_on generalizing logger with
  | incomplete s h =>
    subst hraw
    rw [packetLoop_of_incomplete h, Framing.frames_of_incomplete h, Framing.rest_of_incomplete h]
    exact ⟨rfl, (List.append_nil _).symm, iff_of_true hsync (by simp [InSync]), fun _ => rfl⟩
  | next s p r h ih =>
    subst hraw
    rw [packetLoop_of_next hsync h, Framing.frames_of_next h, Framing.rest_of_next h]
    by_cases hp : isValidHeader p.message = true
    · obtain ⟨hsame, hlog, hstays, hrest⟩ := ih { logger with
        mRawBytesInFlight := r
        mOutOfSync := !isValidHeader p.message
        log := logger.log ++ .packet logger.mPrefix p :: if !isValidHeader p.message then [.outOfSync] else [] }
        rfl (by simp [hp])
      refine ⟨hsame, ?_, hstays.trans (by simp [InSync, hp]), hrest⟩
      rw [hlog, logged, if_pos hp]
      simp [hp]
    · rw [packetLoop_of_outOfSync (by simp [hp])]
      refine ⟨rfl, ?_, ?_, fun hstays => absurd hstays (by simp [hp])⟩
      · rw [logged, if_neg hp]
        simp [hp]
      · exact iff_of_false (by simp [hp]) fun h => hp (h p List.mem_cons_self)

/-- A chunk. -/
theorem Read.observe {mPrefix : String} {stream : Bytes} {logger : AdbMessageLogger} (h : Read mPrefix stream logger)
    (data : Bytes) : Read mPrefix (stream ++ data) (logger.observe data) := by
  have hframes := packets.frames_append stream data
  have hrest := packets.rest_append stream data
  rw [AdbMessageLogger.observe]
  by_cases hsync : logger.mOutOfSync = false
  · rw [if_neg (by simp [hsync])]
    have hstays := h.outOfSync.mp hsync
    obtain ⟨hsame, hlog, hstays', hrest'⟩ := packetLoop_spec (packets.rest stream ++ data)
      { logger with mRawBytesInFlight := logger.mRawBytesInFlight ++ data }
      (by rw [← h.rest hsync]) hsync
    refine ⟨hsame.trans h.prefix_eq, ?_, ?_, fun hafter => (hrest' hafter).trans hrest.symm⟩
    · rw [hlog, h.log, hframes, logged_append, if_pos hstays, h.prefix_eq]
    · rw [hstays', hframes]
      simp only [InSync, List.forall_mem_append]
      exact (and_iff_right hstays).symm
  · have hlost := fun hall => hsync (h.outOfSync.mpr hall)
    rw [if_pos (by simpa using hsync)]
    refine ⟨h.prefix_eq, ?_, iff_of_false hsync fun hall => ?_, fun hafter => absurd hafter hsync⟩
    · rw [h.log, hframes, logged_append, if_neg hlost, List.append_nil]
    · rw [hframes] at hall
      exact hlost fun p hp => hall p (List.mem_append_left _ hp)

theorem read_new (mPrefix : String) : Read mPrefix [] (new mPrefix) := by
  have hnil := Framing.incomplete_nil (F := packets)
  refine ⟨rfl, ?_, iff_of_true rfl ?_, fun _ => ?_⟩
  · rw [Framing.frames_of_incomplete hnil]
    rfl
  · rw [Framing.frames_of_incomplete hnil]
    exact fun p hp => absurd hp List.not_mem_nil
  · rw [Framing.rest_of_incomplete hnil]
    rfl

theorem observe_all {mPrefix : String} {stream : Bytes} {logger : AdbMessageLogger} (h : Read mPrefix stream logger)
    (chunks : List Bytes) :
    Read mPrefix (stream ++ chunks.flatten) (chunks.foldl AdbMessageLogger.observe logger) := by
  induction chunks generalizing stream logger with
  | nil => rwa [List.flatten_nil, List.append_nil]
  | cons chunk chunks ih =>
    rw [List.flatten_cons, ← List.append_assoc]
    exact ih (h.observe chunk)

/-- **Packets, not chunks.** Whatever the chunks of a stream are, what is logged are its complete packets, in
order, up to the first one with a wrong magic, and nothing behind that one. -/
theorem packets_not_chunks (mPrefix : String) (chunks : List Bytes) :
    (chunks.foldl AdbMessageLogger.observe (new mPrefix)).log =
      logged mPrefix (packets.frames chunks.flatten) :=
  (observe_all (read_new mPrefix) chunks).log

end AdbMessageLogger

end Goldfish.Adb
