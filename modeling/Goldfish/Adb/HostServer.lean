import Goldfish.Lib.CStrings

/-!
# Goldfish.Adb.HostServer

Reading from the adb server (`AdbHostServer.cpp`): a number of bytes (`readResponse`), and
a string with its length in front (`readProtocolString`).

A connection is what is to arrive: chunks of bytes with pauses between them, and the end.
`socketRecv` takes no more than a chunk at a time. The loop of `readResponse` compares what
it returns with error numbers, so a chunk of eleven bytes counts as a pause and is read
over, and a pause itself counts as the end. `Smooth` is what is left
(`readResponse_smooth`); in every other case bytes are lost or missing
(`readResponse_rough`).
-/

namespace Goldfish.Adb

open Goldfish.Lib

/-- The numbers of Linux. -/
def EAGAIN : Int := 11

/-- Both names stand for one number on the platforms of the emulator. -/
def EWOULDBLOCK : Int := EAGAIN

/-- What arrives next; a chunk is not empty. -/
inductive Arrival where
  | data (first : UInt8) (more : List UInt8)
  | wouldBlock
  deriving DecidableEq, Repr

/-- What arrives on a connection, in this order. -/
abbrev Connection := List Arrival

/-- The bytes of an arrival; a pause brings none. -/
def Arrival.bytes : Arrival → List UInt8
  | .data first more => first :: more
  | .wouldBlock => []

/-- The bytes that are to arrive. -/
def Connection.stream (fd : Connection) : List UInt8 := fd.flatMap Arrival.bytes

/-- Bytes in front of what arrives. -/
def Connection.putBack (fd : Connection) : List UInt8 → Connection
  | [] => fd
  | first :: more => .data first more :: fd

/-- What `socketRecv` returns, the bytes it writes, and what is to arrive then. -/
structure Recv where
  ret : Int
  bytes : List UInt8
  fd : Connection
  deriving DecidableEq, Repr

/-- `socketRecv`: one arrival, and what is left of it goes back. -/
def socketRecv : Connection → Nat → Recv
  | [], _ => ⟨0, [], []⟩
  | .wouldBlock :: fd, _ => ⟨-1, [], fd⟩
  | .data first more :: fd, len =>
    ⟨((first :: more).take len).length, (first :: more).take len, Connection.putBack fd ((first :: more).drop len)⟩

@[simp]
theorem stream_putBack (fd : Connection) (bytes : List UInt8) : (fd.putBack bytes).stream = bytes ++ fd.stream := by
  cases bytes with
  | nil => rfl
  | cons first more => exact List.flatMap_cons

theorem stream_data (first : UInt8) (more : List UInt8) (fd : Connection) :
    Connection.stream (.data first more :: fd) = first :: (more ++ fd.stream) := List.flatMap_cons

/-- Bytes are taken from the front of the stream. -/
theorem socketRecv_stream (fd : Connection) (len : Nat) :
    fd.stream = (socketRecv fd len).bytes ++ (socketRecv fd len).fd.stream := by
  cases fd with
  | nil => rfl
  | cons arrival fd =>
    cases arrival with
    | wouldBlock => rfl
    | data first more =>
      rw [socketRecv, stream_putBack, ← List.append_assoc, List.take_append_drop]
      exact List.flatMap_cons

theorem socketRecv_pos {fd : Connection} {len : Nat} (h : 0 < (socketRecv fd len).ret) :
    (socketRecv fd len).ret = (socketRecv fd len).bytes.length := by
  cases fd with
  | nil => cases h
  | cons arrival fd =>
    cases arrival with
    | wouldBlock => cases h
    | data first more => rfl

/-- What goes on has taken something. -/
theorem socketRecv_shorter {fd : Connection} {len : Nat} (h : 0 < (socketRecv fd len).ret) :
    (socketRecv fd len).fd.stream.length < fd.stream.length := by
  have hlength := congrArg List.length (socketRecv_stream fd len)
  rw [List.length_append] at hlength
  have hret := socketRecv_pos h
  omega

/-! ### `readResponse` -/

/-- Bytes are written at a position of the buffer. -/
def writeAt (buffer : List UInt8) (position : Nat) (bytes : List UInt8) : List UInt8 :=
  buffer.take position ++ bytes ++ buffer.drop (position + bytes.length)

/-- The loop: the buffer, the bytes that were read and those that are to be read. -/
def readLoop (fd : Connection) (buffer : List UInt8) (bytesRead bytesToRead : Nat) : List UInt8 × Connection :=
  if 0 < bytesToRead then
    let recv := socketRecv fd bytesToRead
    let buffer := writeAt buffer bytesRead recv.bytes
    if _hpause : recv.ret = EAGAIN ∨ recv.ret = EWOULDBLOCK then readLoop recv.fd buffer bytesRead bytesToRead
    else if _hend : recv.ret ≤ 0 then (buffer.take bytesRead, recv.fd)
    else readLoop recv.fd buffer (bytesRead + recv.ret.toNat) (bytesToRead - recv.ret.toNat)
  else (buffer.take bytesRead, fd)
termination_by fd.stream.length
decreasing_by
  · refine socketRecv_shorter ?_
    rcases _hpause with h | h <;> rw [h] <;> decide
  · exact socketRecv_shorter (Int.not_le.mp _hend)

/-- The string is as long as the number of bytes that were read. -/
def readResponse (fd : Connection) (bytesToRead : Nat) : List UInt8 × Connection :=
  readLoop fd (List.replicate bytesToRead 0) 0 bytesToRead

/-! ### Where nothing is lost -/

/-- Up to the last byte that is to be read there is no call that returns eleven bytes, and no pause. -/
def Smooth : Connection → Nat → Prop
  | _, 0 => True
  | [], _ + 1 => True
  | .wouldBlock :: fd, _ + 1 => Connection.stream fd = []
  | .data _ more :: fd, n + 1 =>
    min (more.length + 1) (n + 1) ≠ 11 ∧ (more.length < n → Smooth fd (n - more.length))

/-- The connection behind some bytes. -/
def Connection.behind : Connection → Nat → Connection
  | fd, 0 => fd
  | [], _ + 1 => []
  | .wouldBlock :: fd, n + 1 => Connection.behind fd (n + 1)
  | .data _ more :: fd, n + 1 =>
    if more.length < n then Connection.behind fd (n - more.length) else Connection.putBack fd (more.drop n)

section ReadLoop

variable {fd : Connection} {buffer : List UInt8} {bytesRead n : Nat}

theorem readLoop_zero (fd : Connection) (buffer : List UInt8) (bytesRead : Nat) :
    readLoop fd buffer bytesRead 0 = (buffer.take bytesRead, fd) := by
  rw [readLoop, if_neg (Nat.lt_irrefl 0)]

/-- One call. -/
theorem readLoop_succ (fd : Connection) (buffer : List UInt8) (bytesRead n : Nat) :
    readLoop fd buffer bytesRead (n + 1) =
      let recv := socketRecv fd (n + 1)
      let buffer := writeAt buffer bytesRead recv.bytes
      if recv.ret = 11 then readLoop recv.fd buffer bytesRead (n + 1)
      else if recv.ret ≤ 0 then (buffer.take bytesRead, recv.fd)
      else readLoop recv.fd buffer (bytesRead + recv.bytes.length) (n + 1 - recv.bytes.length) := by
  rw [readLoop, if_pos (Nat.succ_pos n)]
  dsimp only
  by_cases hpause : (socketRecv fd (n + 1)).ret = 11
  · rw [dif_pos (.inl hpause), if_pos hpause]
  · rw [dif_neg (by simpa [EAGAIN, EWOULDBLOCK] using hpause), if_neg hpause]
    by_cases hend : (socketRecv fd (n + 1)).ret ≤ 0
    · rw [dif_pos hend, if_pos hend]
    · rw [dif_neg hend, if_neg hend, socketRecv_pos (Int.not_le.mp hend), Int.toNat_natCast]

/-- No byte is invented. -/
theorem readLoop_le (fd : Connection) (buffer : List UInt8) (bytesRead n : Nat) :
    (readLoop fd buffer bytesRead n).1.length + (readLoop fd buffer bytesRead n).2.stream.length ≤
      bytesRead + fd.stream.length := by
  induction hlength : fd.stream.length using Nat.strongRecOn generalizing fd buffer bytesRead n with
  | _ length ih =>
    cases n with
    | zero =>
      rw [readLoop_zero]
      have htake := List.length_take_le bytesRead buffer
      dsimp only
      omega
    | succ n =>
      have hstream := congrArg List.length (socketRecv_stream fd (n + 1))
      rw [List.length_append] at hstream
      rw [readLoop_succ]
      dsimp only
      split
      · rename_i hpause
        have hshorter := socketRecv_shorter (show 0 < (socketRecv fd (n + 1)).ret by omega)
        have hrest := ih _ (hlength ▸ hshorter) (socketRecv fd (n + 1)).fd
          (writeAt buffer bytesRead (socketRecv fd (n + 1)).bytes) bytesRead (n + 1) rfl
        omega
      split
      · have htake := List.length_take_le bytesRead (writeAt buffer bytesRead (socketRecv fd (n + 1)).bytes)
        dsimp only
        omega
      · rename_i hend
        have hshorter := socketRecv_shorter (Int.not_le.mp hend)
        have hrest := ih _ (hlength ▸ hshorter) (socketRecv fd (n + 1)).fd
          (writeAt buffer bytesRead (socketRecv fd (n + 1)).bytes)
          (bytesRead + (socketRecv fd (n + 1)).bytes.length) (n + 1 - (socketRecv fd (n + 1)).bytes.length) rfl
        omega

theorem take_writeAt (hread : bytesRead ≤ buffer.length) (bytes : List UInt8) :
    (writeAt buffer bytesRead bytes).take (bytesRead + bytes.length) = buffer.take bytesRead ++ bytes := by
  have hlength : (buffer.take bytesRead ++ bytes).length = bytesRead + bytes.length := by
    rw [List.length_append, List.length_take_of_le hread]
  rw [writeAt, ← hlength, List.take_left]

theorem length_writeAt (hread : bytesRead ≤ buffer.length) (bytes : List UInt8) :
    bytesRead + bytes.length ≤ (writeAt buffer bytesRead bytes).length := by
  rw [writeAt, List.length_append, List.length_append, List.length_take_of_le hread]
  omega

theorem writeAt_nil (buffer : List UInt8) (position : Nat) : writeAt buffer position [] = buffer := by
  rw [writeAt, List.append_nil, List.length_nil, Nat.add_zero, List.take_append_drop]

theorem readLoop_nil (buffer : List UInt8) (bytesRead n : Nat) :
    readLoop [] buffer bytesRead (n + 1) = (buffer.take bytesRead, []) := by
  rw [readLoop_succ]
  simp [socketRecv, writeAt_nil]

/-- A pause is taken for the end. -/
theorem readLoop_wouldBlock (fd : Connection) (buffer : List UInt8) (bytesRead n : Nat) :
    readLoop (.wouldBlock :: fd) buffer bytesRead (n + 1) = (buffer.take bytesRead, fd) := by
  rw [readLoop_succ]
  simp [socketRecv, writeAt_nil]

/-- A chunk, of which no more is taken than is to be read. -/
theorem readLoop_data (first : UInt8) (more : List UInt8) (fd : Connection) (buffer : List UInt8) (bytesRead n : Nat)
    (h : min (more.length + 1) (n + 1) ≠ 11) :
    readLoop (.data first more :: fd) buffer bytesRead (n + 1) =
      readLoop (fd.putBack (more.drop n)) (writeAt buffer bytesRead (first :: more.take n))
        (bytesRead + (first :: more.take n).length) (n - more.length) := by
  have hbytes : (first :: more.take n).length = min n more.length + 1 := by
    rw [List.length_cons, List.length_take]
  have hrecv : socketRecv (.data first more :: fd) (n + 1) =
      ⟨(first :: more.take n).length, first :: more.take n, fd.putBack (more.drop n)⟩ := rfl
  rw [readLoop_succ, hrecv]
  dsimp only
  rw [if_neg (by omega), if_neg (by omega), show n + 1 - (first :: more.take n).length = n - more.length by omega]

/-- **Where nothing is lost**, the next bytes are read, and those behind them are left. -/
theorem readLoop_smooth (h : Smooth fd n) (hread : bytesRead ≤ buffer.length) :
    (readLoop fd buffer bytesRead n).1 = buffer.take bytesRead ++ fd.stream.take n ∧
      (readLoop fd buffer bytesRead n).2.stream = fd.stream.drop n := by
  induction fd generalizing buffer bytesRead n with
  | nil =>
    cases n with
    | zero => rw [readLoop_zero]; exact ⟨(List.append_nil _).symm, rfl⟩
    | succ n => rw [readLoop_nil]; exact ⟨(List.append_nil _).symm, rfl⟩
  | cons arrival fd ih =>
    cases n with
    | zero => rw [readLoop_zero]; exact ⟨(List.append_nil _).symm, rfl⟩
    | succ n =>
      cases arrival with
      | wouldBlock =>
        have hnil : Connection.stream (.wouldBlock :: fd) = [] := h
        rw [readLoop_wouldBlock, hnil]
        exact ⟨(List.append_nil _).symm, h⟩
      | data first more =>
        obtain ⟨hsize, hrest⟩ := h
        have htake := take_writeAt hread (first :: more.take n)
        have hfits := length_writeAt hread (first :: more.take n)
        rw [readLoop_data first more fd buffer bytesRead n hsize, stream_data, List.take_succ_cons,
          List.drop_succ_cons]
        by_cases hmore : more.length < n
        · -- the chunk is read, and the loop goes on
          obtain ⟨hbytes, hleft⟩ := ih (hrest hmore) hfits
          have hall : more.take n = more := List.take_of_length_le hmore.le
          rw [List.drop_eq_nil_of_le hmore.le]
          rw [hall] at htake hbytes hleft ⊢
          refine ⟨?_, hleft.trans ?_⟩
          · rw [Connection.putBack, hbytes, htake, List.append_assoc, List.take_append,
              List.take_of_length_le hmore.le]
            rfl
          · rw [List.drop_append, List.drop_eq_nil_of_le hmore.le, List.nil_append]
        · have hle := not_lt.mp hmore
          rw [Nat.sub_eq_zero_of_le hle, readLoop_zero, htake, List.take_append_of_le_length hle,
            List.drop_append_of_le_length hle]
          exact ⟨rfl, stream_putBack fd _⟩

/-- **Elsewhere** a byte is lost or missing. -/
theorem readLoop_rough (h : ¬ Smooth fd n) (buffer : List UInt8) (bytesRead : Nat) :
    (readLoop fd buffer bytesRead n).1.length + (readLoop fd buffer bytesRead n).2.stream.length <
        bytesRead + fd.stream.length ∨
      (readLoop fd buffer bytesRead n).1.length < bytesRead + min n fd.stream.length := by
  induction fd generalizing buffer bytesRead n with
  | nil => cases n <;> exact absurd trivial h
  | cons arrival fd ih =>
    cases n with
    | zero => exact absurd trivial h
    | succ n =>
      cases arrival with
      | wouldBlock =>
        have hpos := List.length_pos_iff.mpr h
        have hstream : Connection.stream (.wouldBlock :: fd) = Connection.stream fd := rfl
        have hread := List.length_take_le bytesRead buffer
        right
        rw [readLoop_wouldBlock, hstream]
        dsimp only
        omega
      | data first more =>
        have hlength : (Connection.stream (.data first more :: fd)).length =
            more.length + (Connection.stream fd).length + 1 := by
          rw [stream_data, List.length_cons, List.length_append]
        have hbytes : (first :: more.take n).length = min n more.length + 1 := by
          rw [List.length_cons, List.length_take]
        by_cases hsize : min (more.length + 1) (n + 1) = 11
        · -- the bytes of this call are lost
          have hle := readLoop_le (Connection.putBack fd (more.drop n))
            (writeAt buffer bytesRead (first :: more.take n)) bytesRead
            (n + 1)
          have hrecv : socketRecv (.data first more :: fd) (n + 1) =
              ⟨(first :: more.take n).length, first :: more.take n, Connection.putBack fd (more.drop n)⟩ := rfl
          rw [stream_putBack, List.length_append, List.length_drop] at hle
          left
          rw [readLoop_succ, hrecv]
          dsimp only
          rw [if_pos (by omega)]
          omega
        · rw [readLoop_data first more fd buffer bytesRead n hsize]
          have hmore : more.length < n := by
            by_contra hmore
            exact h ⟨hsize, fun hlt => absurd hlt hmore⟩
          have hrest : ¬ Smooth fd (n - more.length) := fun hrest => h ⟨hsize, fun _ => hrest⟩
          rw [List.drop_eq_nil_of_le hmore.le, Connection.putBack]
          rcases ih hrest (writeAt buffer bytesRead (first :: more.take n)) (bytesRead + (first :: more.take n).length)
            with hlost | hmissing
          · left
            omega
          · right
            omega

/-- Fewer bytes than eleven are not lost. -/
theorem readLoop_few (hn : n < 11) (fd : Connection) (hread : bytesRead ≤ buffer.length) :
    bytesRead + fd.stream.length ≤
      (readLoop fd buffer bytesRead n).1.length + (readLoop fd buffer bytesRead n).2.stream.length := by
  have htake := List.length_take_of_le hread
  induction fd generalizing buffer bytesRead n with
  | nil =>
    cases n with
    | zero => rw [readLoop_zero]; exact Nat.le_of_eq (by rw [htake])
    | succ n => rw [readLoop_nil]; exact Nat.le_of_eq (by rw [htake])
  | cons arrival fd ih =>
    cases n with
    | zero => rw [readLoop_zero]; exact Nat.le_of_eq (by rw [htake])
    | succ n =>
      cases arrival with
      | wouldBlock => rw [readLoop_wouldBlock]; exact Nat.le_of_eq (by rw [htake]; rfl)
      | data first more =>
        have hfits := length_writeAt hread (first :: more.take n)
        have hbytes : (first :: more.take n).length = min n more.length + 1 := by
          rw [List.length_cons, List.length_take]
        rw [readLoop_data first more fd buffer bytesRead n (by omega), stream_data, List.length_cons,
          List.length_append]
        by_cases hmore : more.length < n
        · have hrest := ih (n := n - more.length) (by omega) hfits (List.length_take_of_le hfits)
          rw [List.drop_eq_nil_of_le hmore.le, Connection.putBack]
          omega
        · rw [Nat.sub_eq_zero_of_le (not_lt.mp hmore), readLoop_zero, stream_putBack, List.length_append,
            List.length_take_of_le hfits, List.length_drop]
          omega

/-- What is left then. -/
theorem readLoop_behind (h : Smooth fd n) (hlength : n ≤ fd.stream.length) (buffer : List UInt8) (bytesRead : Nat) :
    (readLoop fd buffer bytesRead n).2 = fd.behind n := by
  induction fd generalizing buffer bytesRead n with
  | nil => cases n with
    | zero => rw [readLoop_zero, Connection.behind]
    | succ n => cases hlength
  | cons arrival fd ih =>
    cases n with
    | zero => rw [readLoop_zero, Connection.behind]
    | succ n =>
      cases arrival with
      | wouldBlock =>
        have hnil : Connection.stream (.wouldBlock :: fd) = [] := h
        rw [hnil] at hlength
        cases hlength
      | data first more =>
        obtain ⟨hsize, hrest⟩ := h
        rw [stream_data, List.length_cons, List.length_append] at hlength
        rw [readLoop_data first more fd buffer bytesRead n hsize, Connection.behind]
        by_cases hmore : more.length < n
        · rw [if_pos hmore, List.drop_eq_nil_of_le hmore.le, Connection.putBack]
          exact ih (hrest hmore) (by omega) _ _
        · rw [if_neg hmore, Nat.sub_eq_zero_of_le (not_lt.mp hmore), readLoop_zero]

end ReadLoop

/-- The next bytes are returned, as many as there are, and those behind them are still to arrive. -/
def ReadsNext (fd : Connection) (n : Nat) : Prop :=
  (readResponse fd n).1 = fd.stream.take n ∧ (readResponse fd n).2.stream = fd.stream.drop n

/-- **Reading bytes.** -/
theorem readsNext_iff (fd : Connection) (n : Nat) : ReadsNext fd n ↔ Smooth fd n := by
  constructor
  · intro ⟨hbytes, hleft⟩
    by_contra hrough
    rcases readLoop_rough hrough (List.replicate n 0) 0 with hlost | hmissing
    · rw [← readResponse, hbytes, hleft, List.length_take, List.length_drop] at hlost
      omega
    · rw [← readResponse, hbytes, List.length_take] at hmissing
      omega
  · intro hsmooth
    have hbuffer : 0 ≤ (List.replicate n (0 : UInt8)).length := Nat.zero_le _
    obtain ⟨hbytes, hleft⟩ := readLoop_smooth hsmooth hbuffer
    exact ⟨hbytes, hleft⟩

/-! ### `readProtocolString` -/

/-- `isxdigit`, in the C locale. -/
def isxdigit (c : UInt8) : Bool :=
  isdigit c || ('a'.toUInt8 ≤ c && c ≤ 'f'.toUInt8) || ('A'.toUInt8 ≤ c && c ≤ 'F'.toUInt8)

/-- The value of a hexadecimal digit. -/
def xdigit (c : UInt8) : Nat :=
  if isdigit c then c.toNat - 48 else (tolower c).toNat - 87

/-- The value of a row of hexadecimal digits. -/
def hexadecimal (digits : List UInt8) : Nat := digits.foldl (fun n c => 16 * n + xdigit c) 0

/-- `0x` in front of the digits. -/
def splitPrefix : List UInt8 → List UInt8
  | c :: d :: cs => if c = '0'.toUInt8 ∧ (d = 'x'.toUInt8 ∨ d = 'X'.toUInt8) then cs else c :: d :: cs
  | cs => cs

/-- `sscanf` with `%04x`: white space, and up to four characters with a sign, `0x` and digits. -/
def sscanf_04x (s : List UInt8) : Option UInt32 :=
  let number := splitSign ((s.dropWhile isspace).take 4)
  let digits := (splitPrefix number.2).takeWhile isxdigit
  if digits = [] then none
  else if number.1 = ['-'.toUInt8] then some (0 - UInt32.ofNat (hexadecimal digits))
  else some (UInt32.ofNat (hexadecimal digits))

/-- What `std::string` throws. -/
inductive Thrown where
  | length_error
  deriving DecidableEq, Repr

/-- A length that is negative as an `int` makes no string. -/
def readProtocolString (fd : Connection) : Except Thrown (List UInt8 × Connection) :=
  let incoming := readResponse fd 4
  match if incoming.1.length = 4 then sscanf_04x incoming.1 else none with
  | none => .ok ([], incoming.2)
  | some bytesToRead =>
    if 2147483648 ≤ bytesToRead.toNat then .error .length_error
    else
      let message := readResponse incoming.2 bytesToRead.toNat
      if message.1.length ≠ bytesToRead.toNat then .ok ([], message.2) else .ok message

/-- The four digits in front of a string of this length. -/
structure HexLength (digits : List UInt8) (n : Nat) : Prop where
  length : digits.length = 4
  xdigits : ∀ c ∈ digits, isxdigit c = true
  value : hexadecimal digits = n

theorem isxdigit_iff {c : UInt8} : isxdigit c = true ↔
    (48 ≤ c.toNat ∧ c.toNat ≤ 57) ∨ (97 ≤ c.toNat ∧ c.toNat ≤ 102) ∨ (65 ≤ c.toNat ∧ c.toNat ≤ 70) := by
  rw [isxdigit, Bool.or_eq_true, Bool.or_eq_true, isdigit_iff, Bool.and_eq_true, Bool.and_eq_true, decide_eq_true_eq,
    decide_eq_true_eq, decide_eq_true_eq, decide_eq_true_eq, UInt8.le_iff_toNat_le, UInt8.le_iff_toNat_le,
    UInt8.le_iff_toNat_le, UInt8.le_iff_toNat_le, or_assoc]
  exact Iff.rfl

theorem xdigit_lt {c : UInt8} (h : isxdigit c = true) : xdigit c < 16 := by
  have hrange := isxdigit_iff.mp h
  unfold xdigit
  split
  · rename_i hdigit
    have := isdigit_iff.mp hdigit
    omega
  · rename_i hdigit
    rw [isdigit_iff] at hdigit
    unfold tolower
    split
    · rename_i hupper
      rw [UInt8.le_iff_toNat_le, UInt8.le_iff_toNat_le] at hupper
      have hcase : 65 ≤ c.toNat ∧ c.toNat ≤ 90 := hupper
      rw [UInt8.toNat_add]
      simp
      omega
    · omega

theorem HexLength.sscanf {digits : List UInt8} {n : Nat} (h : HexLength digits n) :
    sscanf_04x digits = some (UInt32.ofNat n) ∧ n < 65536 := by
  obtain ⟨hlength, hdigits, rfl⟩ := h
  obtain ⟨a, b, c, d, rfl⟩ := List.length_eq_four.mp hlength
  have ha := hdigits a (by simp)
  have hb := hdigits b (by simp)
  have hc := hdigits c (by simp)
  have hd := hdigits d (by simp)
  have hspace : isspace a = false := by
    rw [Bool.eq_false_iff, Ne, isspace_iff]
    have := isxdigit_iff.mp ha
    omega
  have hsign : isSign a = false := by
    rw [Bool.eq_false_iff, Ne, isSign_iff]
    have := isxdigit_iff.mp ha
    omega
  have hx : ¬ (b = 'x'.toUInt8 ∨ b = 'X'.toUInt8) := by
    intro hx
    rcases hx with rfl | rfl <;> exact absurd hb (by decide)
  constructor
  · have hsplit : splitSign [a, b, c, d] = ([], [a, b, c, d]) := by
      rw [splitSign, hsign]
      rfl
    have hstarts : splitPrefix [a, b, c, d] = [a, b, c, d] := if_neg fun h => hx h.2
    have htake : [a, b, c, d].takeWhile isxdigit = [a, b, c, d] := by
      simp [ha, hb, hc, hd]
    rw [sscanf_04x, List.dropWhile_cons_of_neg (by simp [hspace]), List.take_of_length_le (Nat.le_refl 4), hsplit]
    dsimp only
    rw [hstarts, htake, if_neg (List.cons_ne_nil _ _), if_neg (by simp)]
  · have hax := xdigit_lt ha
    have hbx := xdigit_lt hb
    have hcx := xdigit_lt hc
    have hdx := xdigit_lt hd
    simp only [hexadecimal, List.foldl_cons, List.foldl_nil]
    omega

/-- The string is returned, and what is behind it is still to arrive. -/
def ReadsString (fd : Connection) (payload rest : List UInt8) : Prop :=
  ∃ left, readProtocolString fd = .ok (payload, left) ∧ left.stream = rest

theorem readsString_iff {fd : Connection} {digits payload rest : List UInt8}
    (hdigits : HexLength digits payload.length) (hstream : fd.stream = digits ++ (payload ++ rest)) :
    ReadsString fd payload rest ↔ Smooth fd 4 ∧ Smooth (fd.behind 4) payload.length := by
  have hlength := congrArg List.length hstream
  rw [List.length_append, List.length_append, hdigits.length] at hlength
  by_cases hfour : Smooth fd 4
  · obtain ⟨hincoming, hleft⟩ := (readsNext_iff fd 4).mpr hfour
    have hbehind : (readResponse fd 4).2 = fd.behind 4 := readLoop_behind hfour (by omega) _ _
    rw [hstream, List.take_append_of_le_length (by rw [hdigits.length]),
      List.take_of_length_le (Nat.le_of_eq hdigits.length)] at hincoming
    rw [hbehind, hstream, List.drop_append_of_le_length (by rw [hdigits.length]),
      List.drop_eq_nil_of_le (Nat.le_of_eq hdigits.length), List.nil_append] at hleft
    obtain ⟨hscan, hsmall⟩ := hdigits.sscanf
    have hnat : (UInt32.ofNat payload.length).toNat = payload.length :=
      UInt32.toNat_ofNat_of_lt' (Nat.lt_trans hsmall (by decide))
    have hcall : readProtocolString fd = if (readResponse (fd.behind 4) payload.length).1.length ≠ payload.length then
        .ok ([], (readResponse (fd.behind 4) payload.length).2)
        else .ok (readResponse (fd.behind 4) payload.length) := by
      rw [readProtocolString, hincoming, if_pos hdigits.length, hscan, hbehind]
      dsimp only
      rw [hnat, if_neg (by omega)]
    rw [ReadsString, hcall, and_iff_right hfour, ← readsNext_iff, ReadsNext, hleft,
      List.take_left' rfl, List.drop_left' rfl]
    constructor
    · rintro ⟨left, hread, hrest⟩
      split at hread
      · rename_i hshort
        obtain ⟨rfl, rfl⟩ := Prod.mk.inj (Except.ok.inj hread)
        -- an empty string is not short
        exact absurd (by rw [List.length_nil, readResponse, readLoop_zero]; rfl) hshort
      · have hmessage := Except.ok.inj hread
        rw [hmessage]
        exact ⟨rfl, hrest⟩
    · intro ⟨hmessage, hrest⟩
      rw [if_neg (by rw [hmessage]; exact not_not.mpr rfl)]
      exact ⟨_, congrArg Except.ok (Prod.ext hmessage rfl), hrest⟩
  · refine iff_of_false (fun hstring => ?_) fun h => hfour h.1
    -- the length is not there in full, and the call returns at once
    have hbuffer : 0 ≤ (List.replicate 4 (0 : UInt8)).length := Nat.zero_le _
    have hfew := readLoop_few (show 4 < 11 by decide) fd hbuffer
    have hshort : (readResponse fd 4).1.length < 4 := by
      rcases readLoop_rough hfour (List.replicate 4 0) 0 with hlost | hmissing
      · omega
      · rw [← readResponse] at hmissing
        omega
    obtain ⟨left, hread, hrest⟩ := hstring
    rw [readProtocolString, if_neg (by omega)] at hread
    obtain ⟨-, rfl⟩ := Prod.mk.inj (Except.ok.inj hread)
    rw [← readResponse, hrest] at hfew
    omega

/-- **Reading from the server.** A number of bytes is read, and a string behind its length, exactly if no call on the
way returns eleven bytes and no pause comes before the last byte. -/
theorem reading_iff (fd : Connection) (n : Nat) (fd' : Connection) (digits payload rest : List UInt8)
    (hdigits : HexLength digits payload.length) (hstream : fd'.stream = digits ++ (payload ++ rest)) :
    (ReadsNext fd n ↔ Smooth fd n) ∧
      (ReadsString fd' payload rest ↔ Smooth fd' 4 ∧ Smooth (fd'.behind 4) payload.length) :=
  ⟨readsNext_iff fd n, readsString_iff hdigits hstream⟩

/-- The bytes of a literal in one chunk. -/
def chunk (s : String) : Connection :=
  match literal s with
  | [] => []
  | first :: more => [.data first more]

/-- A string of twelve bytes arrives with its length in two chunks, and two bytes of it are read first. -/
theorem reading_two_chunks : Smooth (chunk "ab" ++ chunk "cd") 3 ∧
    ReadsNext (chunk "ab" ++ chunk "cd") 3 ∧
      ReadsString (chunk "00" ++ chunk "0cabcdefghijkl") (literal "abcdefghijkl") [] := by
  have hdigits : HexLength (literal "000c") (literal "abcdefghijkl").length :=
    ⟨by decide, by decide +kernel, by decide⟩
  have hsmooth : Smooth (chunk "ab" ++ chunk "cd") 3 :=
    ⟨by decide, fun _ => ⟨by decide, fun h => absurd h (by decide)⟩⟩
  have hiff := reading_iff (chunk "ab" ++ chunk "cd") 3 (chunk "00" ++ chunk "0cabcdefghijkl") (literal "000c")
    (literal "abcdefghijkl") [] hdigits rfl
  refine ⟨hsmooth, hiff.1.mpr hsmooth, hiff.2.mpr ⟨?_, ?_⟩⟩
  · exact ⟨by decide, fun _ => ⟨by decide, fun h => absurd h (by decide)⟩⟩
  · exact ⟨by decide, fun h => absurd h (by decide)⟩

/-- Eleven bytes in one chunk are lost, and a pause ends a string. -/
theorem eleven_bytes_and_pause :
    (chunk "hello world").stream = literal "hello world" ∧ (readResponse (chunk "hello world") 11).1 = [] ∧
      (readResponse (chunk "OK" ++ .wouldBlock :: chunk "AY") 4).1 = literal "OK" := by
  refine ⟨rfl, ?_, ?_⟩
  · have hrecv : socketRecv (chunk "hello world") 11 = ⟨11, literal "hello world", []⟩ := rfl
    rw [readResponse, readLoop_succ, hrecv]
    dsimp only
    rw [if_pos rfl, readLoop_nil]
    rfl
  · have hrecv : socketRecv (chunk "OK" ++ .wouldBlock :: chunk "AY") 4 =
        ⟨2, literal "OK", .wouldBlock :: chunk "AY"⟩ := rfl
    rw [readResponse, readLoop_succ, hrecv]
    dsimp only
    rw [if_neg (by decide), if_neg (by decide)]
    exact congrArg Prod.fst (readLoop_wouldBlock (chunk "AY") _ 2 1)

end Goldfish.Adb
