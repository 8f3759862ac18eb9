import Goldfish.Devices.QemudParser

/-!
# Goldfish.Devices.QemudSnapshot

A `Parser` in a **snapshot**: the number of buffered bytes and the bytes.

The bytes are all there is to a parser, so a parser that is loaded goes on exactly like the one that
was saved. The answer of `loadFromSnapshot` is another matter: it is the number of bytes that
`read` got, as a `bool`. This says "some byte was read" where it should say "all were", which is
wrong for an empty buffer one way and for a short read the other way (`loadFromSnapshot_eq`).
-/

namespace Goldfish.Devices.Qemud

open Goldfish.Archive (putSize getSize getSize_put)

variable {σ : Type}

/-! ### The model -/

/-- `max_size` of a vector of bytes: `PTRDIFF_MAX`. -/
def maxSize : Nat := 0x7FFFFFFFFFFFFFFF

/-- `resize`: new elements are zero. There is memory for any size a vector can have; a larger one is an
exception. -/
def resize (buffer : Bytes) (n : Nat) : Option Bytes :=
  if n ≤ maxSize then some (buffer.take n ++ List.replicate (n - buffer.length) 0) else none

/-- `Parser::saveToSnapshot`. -/
def Parser.saveToSnapshot (p : Parser σ) : Bytes := putSize p.mBuffer.length ++ p.mBuffer

/-- `Parser::loadFromSnapshot`: the answer, the parser and what the reader has left, or nothing if
`resize` threw. The answer is the number of bytes that were read. -/
def Parser.loadFromSnapshot (p : Parser σ) (reader : Bytes) : Option (Bool × Parser σ × Bytes) := do
  let (size, reader) := getSize reader
  let mBuffer ← resize p.mBuffer size
  let (bytes, reader) := Archive.read reader mBuffer.length
  -- the bytes behind those that were read stay as `resize` left them
  return (bytes.length != 0, { p with mBuffer := bytes ++ mBuffer.drop bytes.length }, reader)

/-! ### What is loaded -/

theorem resize_eq {buffer : Bytes} {n : Nat} (h : n ≤ maxSize) :
    ∃ resized, resize buffer n = some resized ∧ resized.length = n := by
  refine ⟨_, if_pos h, ?_⟩
  rw [List.length_append, List.length_take, List.length_replicate]
  omega

/-- **What `loadFromSnapshot` does**: the answer tells whether a byte was read. -/
theorem Parser.loadFromSnapshot_eq (p : Parser σ) {reader rest : Bytes} {size : Nat}
    (hsize : getSize reader = (size, rest)) (hmax : size ≤ maxSize) :
    ∃ padding, p.loadFromSnapshot reader = some (min size rest.length != 0,
      { p with mBuffer := rest.take size ++ padding }, rest.drop size) ∧
      padding.length = size - rest.length := by
  obtain ⟨resized, hresize, hlength⟩ := @resize_eq p.mBuffer size hmax
  refine ⟨resized.drop (min size rest.length), ?_, ?_⟩
  · simp only [Parser.loadFromSnapshot, hsize, hresize, Option.bind_eq_bind, Option.bind_some, hlength, Archive.read,
      List.length_take]
    rfl
  · rw [List.length_drop, hlength]
    omega

/-- A size that no vector has is an exception. -/
theorem Parser.loadFromSnapshot_eq_none (p : Parser σ) {reader : Bytes}
    (hmax : ¬ (getSize reader).1 ≤ maxSize) : p.loadFromSnapshot reader = none := by
  simp only [Parser.loadFromSnapshot, resize, if_neg hmax, Option.bind_eq_bind, Option.bind_none]

/-- A saved parser is loaded with its bytes. -/
theorem Parser.loadFromSnapshot_save (fresh p : Parser σ) (hlength : p.mBuffer.length ≤ maxSize)
    (rest : Bytes) : fresh.loadFromSnapshot (p.saveToSnapshot ++ rest) =
      some (p.mBuffer.length != 0, { fresh with mBuffer := p.mBuffer }, rest) := by
  have hsize : getSize (p.saveToSnapshot ++ rest) = (p.mBuffer.length, p.mBuffer ++ rest) := by
    rw [Parser.saveToSnapshot, List.append_assoc]
    refine getSize_put ?_ _
    unfold maxSize at hlength
    omega
  obtain ⟨padding, hload, hpadding⟩ := fresh.loadFromSnapshot_eq hsize hlength
  have hnil : padding = [] := by
    rw [List.length_append] at hpadding
    exact List.eq_nil_of_length_eq_zero (by omega)
  have hmin : min p.mBuffer.length (p.mBuffer ++ rest).length = p.mBuffer.length := by
    rw [List.length_append]
    omega
  rw [hload, hnil, hmin, List.take_left, List.drop_left, List.append_nil]

/-- A buffer between two calls is far from the limit. -/
theorem Pending.length_le {buffer : Bytes} (h : Pending buffer) : buffer.length ≤ maxSize := by
  have hsize := decodeRequestSize_lt buffer
  have h4 : kSizeSize = 4 := rfl
  unfold maxSize
  rcases h with hinc | hempty
  · rcases incomplete_iff.mp hinc with hlt | hlt
    · omega
    · omega
  · have hlength := hempty.1
    omega

/-! ### Snapshots of a stream -/

/-- **A parser saved anywhere in a stream**, with any sink and any bytes behind it in the snapshot. What is
loaded goes on like the original, for any rest of the stream. The answer is `true` exactly
if there was something in the buffer; and for a snapshot that ends before all bytes it announces, it
is `false` exactly if it has none of them and announces no more than a vector can hold. -/
theorem parser_snapshot_iff (sink : Sink σ) (s : σ) (before : List Bytes) :
    (∀ rest, ∃ answer loaded,
      (Parser.init (feed sink (Parser.init s) before).2.mSink).loadFromSnapshot
          ((feed sink (Parser.init s) before).2.saveToSnapshot ++ rest) = some (answer, loaded, rest) ∧
      (∀ after, feed sink loaded after = feed sink (feed sink (Parser.init s) before).2 after) ∧
      (answer = true ↔ (feed sink (Parser.init s) before).2.mBuffer ≠ [])) ∧
    ∀ (fresh : Parser σ) (reader : Bytes), (getSize reader).2.length < (getSize reader).1 →
      ((∃ loaded rest, fresh.loadFromSnapshot reader = some (false, loaded, rest)) ↔
        (getSize reader).2 = [] ∧ (getSize reader).1 ≤ maxSize) := by
  constructor
  · intro rest
    obtain ⟨-, -, -, -, hpending, -⟩ := feed_init sink s before
    refine ⟨_, _, Parser.loadFromSnapshot_save _ _ hpending.length_le rest, fun after => rfl, ?_⟩
    rw [bne_iff_ne, ne_eq, List.length_eq_zero_iff]
  · intro fresh reader hshort
    by_cases hmax : (getSize reader).1 ≤ maxSize
    · have hsize : getSize reader = ((getSize reader).1, (getSize reader).2) := rfl
      obtain ⟨padding, hload, -⟩ := fresh.loadFromSnapshot_eq hsize hmax
      rw [hload, and_iff_left hmax]
      constructor
      · intro hfalse
        obtain ⟨loaded, rest, heq⟩ := hfalse
        have hanswer := congrArg Prod.fst (Option.some.inj heq)
        have hzero := bne_eq_false_iff_eq.mp hanswer
        exact List.eq_nil_of_length_eq_zero (by omega)
      · intro hnil
        rw [hnil, List.length_nil, Nat.min_zero]
        exact ⟨_, _, rfl⟩
    · rw [fresh.loadFromSnapshot_eq_none hmax]
      exact iff_of_false (by simp) fun h => hmax h.2

/-- A parser that was saved in the middle of a header. -/
theorem parser_snapshot_header : (getSize [2, 0x30]).2.length < (getSize [2, 0x30]).1 ∧
    ∃ answer loaded, (Parser.init ()).loadFromSnapshot
      ((feed (fun s _ => (true, s)) (Parser.init ()) [[0x30, 0x30]]).2.saveToSnapshot ++ []) =
        some (answer, loaded, []) := by
  have hsnapshot := parser_snapshot_iff (fun (s : Unit) _ => (true, s)) () [[0x30, 0x30]]
  obtain ⟨answer, loaded, hload, -⟩ := hsnapshot.1 []
  exact ⟨by decide, answer, loaded, hload⟩

/-- Loading a parser that waits for a new packet fails. -/
theorem parser_snapshot_empty :
    ¬ ∀ p : Parser Unit, (p.loadFromSnapshot (Parser.init ()).saveToSnapshot).map Prod.fst = some true := by
  intro hall
  exact absurd (hall (Parser.init ())) (by decide)

end Goldfish.Devices.Qemud
