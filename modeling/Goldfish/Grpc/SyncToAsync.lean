import Goldfish.Lib.Trace

/-!
# Goldfish.Grpc.SyncToAsync

A bidirectional stream that is served by two threads (`SyncToAsyncAdapter.h`): the writer
takes messages from a queue and writes them to the stream, the reader reads until the
stream ends. Any thread calls `Write`, which queues a message, and `Finish`.

A section under `mQueueMutex` is one step, and so is each access to `mOpen` outside of it.
A `Write` of the stream takes two, since it blocks: it begins, and it returns. `wait`
lets the writer pass once its predicate holds.

The messages keep their order (`Ordered`). That the stream stays finished depends on the
moment of `Finish` (`Timely`): the writer stores the result of its `Write` in `mOpen` without
the lock, and so opens the stream again if `Finish` came before.
-/

namespace Goldfish.Grpc

open Goldfish.Lib

/-- `grpc::Status`. -/
structure Status where
  error_code : Nat
  error_message : String
deriving DecidableEq

/-- `Status::OK`. -/
def Status.OK : Status := ⟨0, ""⟩

/-- `Status::CANCELLED`. -/
def Status.CANCELLED : Status := ⟨1, ""⟩

/-- Where the writer is in `startWriter`. -/
inductive WriterPlace (W : Type) where
  /-- In front of the test of the loop. -/
  | test
  /-- In front of the locked section. -/
  | wait
  /-- In front of the `Write` of the stream. -/
  | write (msg : W)
  /-- In the `Write`, which began after a `Finish` if `late`. -/
  | writing (msg : W) (late : Bool)
  /-- In front of the assignment to `mOpen`. -/
  | assign (result : Bool)
  | returned
deriving DecidableEq

/-- Where the reader is in `startReader`. -/
inductive ReaderPlace where
  | test
  /-- In the `Read` of the stream. -/
  | reading
  /-- In the handler of a message. -/
  | handler
  /-- In front of `OnCancel`. -/
  | onCancel
  | returned
deriving DecidableEq

/-- The adapter, and beside it what happened to the messages. -/
structure SyncToAsyncBidiAdapter (W : Type) where
  mOpen : Bool
  mWriteQueue : List W
  mStatus : Status
  writer : WriterPlace W
  reader : ReaderPlace
  /-- The messages that `Write` was called with. -/
  written : List W
  /-- The messages that the stream has taken. -/
  delivered : List W
  /-- A `Finish` has completed. -/
  finished : Bool
  /-- The messages among those delivered whose `Write` began after a `Finish`. -/
  late : List W

/-- What happens next, on one of the threads. -/
inductive AdapterAction (W : Type) where
  | Write (msg : W)
  | Finish (state : Status)
  /-- The writer goes on. -/
  | writer
  /-- The stream returns from the `Write` of the writer. -/
  | writeReturns (result : Bool)
  /-- The reader goes on. -/
  | reader
  /-- The stream returns from the `Read` of the reader. -/
  | readReturns (result : Bool)
deriving DecidableEq

/-- A thread is not where the step begins. -/
inductive NotThere where
  | notThere
deriving DecidableEq

namespace SyncToAsyncBidiAdapter

variable {W : Type}

/-- After `start`. -/
def start : SyncToAsyncBidiAdapter W where
  mOpen := true
  mWriteQueue := []
  mStatus := .OK
  writer := .test
  reader := .test
  written := []
  delivered := []
  finished := false
  late := []

/-- `Write`: the message is queued. -/
def Write (adapter : SyncToAsyncBidiAdapter W) (msg : W) : SyncToAsyncBidiAdapter W :=
  { adapter with mWriteQueue := adapter.mWriteQueue ++ [msg], written := adapter.written ++ [msg] }

/-- `Finish`: the status is kept, and the queue is closed. -/
def Finish (adapter : SyncToAsyncBidiAdapter W) (state : Status) : SyncToAsyncBidiAdapter W :=
  { adapter with mOpen := false, mStatus := state, finished := true }

/-- `OnCancel`. -/
def OnCancel (adapter : SyncToAsyncBidiAdapter W) : SyncToAsyncBidiAdapter W := adapter.Finish .CANCELLED

/-- `startWriter`, up to its next step. -/
def startWriter (adapter : SyncToAsyncBidiAdapter W) : Except NotThere (SyncToAsyncBidiAdapter W) :=
  match adapter.writer with
  | .test => .ok { adapter with writer := if adapter.mOpen then .wait else .returned }
  | .wait =>
    if !adapter.mOpen then .ok { adapter with writer := .returned }
    else match adapter.mWriteQueue with
      | [] => .error .notThere
      | msg :: rest => .ok { adapter with mWriteQueue := rest, writer := .write msg }
  | .write msg => .ok { adapter with writer := .writing msg adapter.finished }
  | .assign result => .ok { adapter with mOpen := result, writer := .test }
  | .writing _ _ | .returned => .error .notThere

/-- The stream has written the message, or has not. -/
def writeReturns (adapter : SyncToAsyncBidiAdapter W) (result : Bool) :
    Except NotThere (SyncToAsyncBidiAdapter W) :=
  match adapter.writer with
  | .writing msg late => .ok { adapter with
      writer := .assign result
      delivered := if result then adapter.delivered ++ [msg] else adapter.delivered
      late := if result && late then adapter.late ++ [msg] else adapter.late }
  | _ => .error .notThere

/-- `startReader`, up to its next step. -/
def startReader (adapter : SyncToAsyncBidiAdapter W) : Except NotThere (SyncToAsyncBidiAdapter W) :=
  match adapter.reader with
  | .test => .ok { adapter with reader := if adapter.mOpen then .reading else .onCancel }
  | .handler => .ok { adapter with reader := .test }
  | .onCancel => .ok { adapter.OnCancel with reader := .returned }
  | .reading | .returned => .error .notThere

/-- The read of the reader thread returns. -/
def readReturns (adapter : SyncToAsyncBidiAdapter W) (result : Bool) :
    Except NotThere (SyncToAsyncBidiAdapter W) :=
  match adapter.reader with
  | .reading => .ok { adapter with reader := if result then .handler else .onCancel }
  | _ => .error .notThere

/-- One step of one of the threads. -/
def step (adapter : SyncToAsyncBidiAdapter W) : AdapterAction W → Except NotThere (SyncToAsyncBidiAdapter W)
  | .Write msg => .ok (adapter.Write msg)
  | .Finish state => .ok (adapter.Finish state)
  | .writer => adapter.startWriter
  | .writeReturns result => adapter.writeReturns result
  | .reader => adapter.startReader
  | .readReturns result => adapter.readReturns result

/-- A run from the start. -/
def run (acts : List (AdapterAction W)) : Except NotThere (SyncToAsyncBidiAdapter W) := acts.foldlM step start

end SyncToAsyncBidiAdapter

/-! ### What a step does -/

section Steps

variable {W : Type}

/-- The steps, with the places they need. What the reader does to the rest of the adapter is to finish it. -/
inductive AdapterStep (s : SyncToAsyncBidiAdapter W) : AdapterAction W → SyncToAsyncBidiAdapter W → Prop
  | Write (msg : W) : AdapterStep s (.Write msg) (s.Write msg)
  | Finish (state : Status) : AdapterStep s (.Finish state) (s.Finish state)
  | leave (hplace : s.writer = .test ∨ s.writer = .wait) (hclosed : s.mOpen = false) :
      AdapterStep s .writer { s with writer := .returned }
  | enter (hplace : s.writer = .test) (hopen : s.mOpen = true) : AdapterStep s .writer { s with writer := .wait }
  | pop (msg : W) (rest : List W) (hplace : s.writer = .wait) (hopen : s.mOpen = true)
      (hqueue : s.mWriteQueue = msg :: rest) :
      AdapterStep s .writer { s with mWriteQueue := rest, writer := .write msg }
  | begin (msg : W) (hplace : s.writer = .write msg) :
      AdapterStep s .writer { s with writer := .writing msg s.finished }
  | assign (result : Bool) (hplace : s.writer = .assign result) :
      AdapterStep s .writer { s with mOpen := result, writer := .test }
  | taken (msg : W) (late : Bool) (hplace : s.writer = .writing msg late) :
      AdapterStep s (.writeReturns true) { s with
        writer := .assign true, delivered := s.delivered ++ [msg], late := if late then s.late ++ [msg] else s.late }
  | refused (msg : W) (late : Bool) (hplace : s.writer = .writing msg late) :
      AdapterStep s (.writeReturns false) { s with writer := .assign false }
  | cancel (hplace : s.reader = .onCancel) : AdapterStep s .reader { s.OnCancel with reader := .returned }
  | read (hplace : s.reader ≠ .onCancel) (place : ReaderPlace) : AdapterStep s .reader { s with reader := place }
  | readReturns (result : Bool) (place : ReaderPlace) :
      AdapterStep s (.readReturns result) { s with reader := place }

theorem adapterStep_of_step {s s' : SyncToAsyncBidiAdapter W} {a : AdapterAction W} (h : s.step a = .ok s') :
    AdapterStep s a s' := by
  cases a with
  | Write msg =>
    obtain rfl := Except.ok.inj h
    exact .Write msg
  | Finish state =>
    obtain rfl := Except.ok.inj h
    exact .Finish state
  | writer =>
    simp only [SyncToAsyncBidiAdapter.step, SyncToAsyncBidiAdapter.startWriter] at h
    split at h
    · rename_i hplace
      obtain rfl := Except.ok.inj h
      split
      · exact .enter hplace ‹_›
      · exact .leave (.inl hplace) (eq_false_of_ne_true ‹_›)
    · rename_i hplace
      split at h
      · rename_i hclosed
        obtain rfl := Except.ok.inj h
        exact .leave (.inr hplace) (by simpa using hclosed)
      · rename_i hopen
        split at h
        · cases h
        · obtain rfl := Except.ok.inj h
          exact .pop _ _ hplace (by simpa using hopen) ‹_›
    · obtain rfl := Except.ok.inj h
      exact .begin _ ‹_›
    · obtain rfl := Except.ok.inj h
      exact .assign _ ‹_›
    · cases h
    · cases h
  | writeReturns result =>
    simp only [SyncToAsyncBidiAdapter.step, SyncToAsyncBidiAdapter.writeReturns] at h
    split at h
    · rename_i msg late hplace
      obtain rfl := Except.ok.inj h
      cases result with
      | true => exact .taken msg late hplace
      | false => exact .refused msg late hplace
    · cases h
  | reader =>
    simp only [SyncToAsyncBidiAdapter.step, SyncToAsyncBidiAdapter.startReader] at h
    split at h
    · rename_i hplace
      obtain rfl := Except.ok.inj h
      exact .read (by rw [hplace]; nofun) _
    · rename_i hplace
      obtain rfl := Except.ok.inj h
      exact .read (by rw [hplace]; nofun) _
    · rename_i hplace
      obtain rfl := Except.ok.inj h
      exact .cancel hplace
    · cases h
    · cases h
  | readReturns result =>
    simp only [SyncToAsyncBidiAdapter.step, SyncToAsyncBidiAdapter.readReturns] at h
    split at h
    · obtain rfl := Except.ok.inj h
      exact .readReturns result _
    · cases h

end Steps

/-! ### The order of the messages -/

/-- The message that the writer has taken from the queue and the stream has not taken yet. -/
def WriterPlace.inHand {W : Type} : WriterPlace W → List W
  | .write msg | .writing msg _ => [msg]
  | _ => []

/-- The writer will not write again. -/
def WriterPlace.Over {W : Type} (mOpen : Bool) : WriterPlace W → Prop
  | .test | .wait => mOpen = false
  | .assign result => result = false
  | .returned => True
  | .write _ | .writing _ _ => False

/-- The messages are delivered, in hand or in the queue, in this order, until the stream refuses one. -/
inductive Ordered {W : Type} (s : SyncToAsyncBidiAdapter W) : Prop
  | all (hwritten : s.written = s.delivered ++ s.writer.inHand ++ s.mWriteQueue)
  | refused (hwritten : s.delivered <+: s.written) (hover : s.writer.Over s.mOpen)

section Order

variable {W : Type} {s s' : SyncToAsyncBidiAdapter W} {a : AdapterAction W}

theorem Ordered.delivered (h : Ordered s) : s.delivered <+: s.written := by
  cases h with
  | all hwritten =>
    rw [hwritten, List.append_assoc]
    exact List.prefix_append _ _
  | refused hwritten _ => exact hwritten

/-- A writer that is over stays so when the stream closes. -/
theorem WriterPlace.Over.close {place : WriterPlace W} {mOpen : Bool} (h : place.Over mOpen) : place.Over false := by
  cases place with
  | test | wait => rfl
  | assign result => exact h
  | returned => trivial
  | write msg | writing msg late => exact h

theorem Ordered.finish (h : Ordered s) (state : Status) : Ordered (s.Finish state) := by
  cases h with
  | all hwritten => exact .all hwritten
  | refused hwritten hover => exact .refused hwritten hover.close

theorem Ordered.read (h : Ordered s) (place : ReaderPlace) : Ordered { s with reader := place } := by
  cases h with
  | all hwritten => exact .all hwritten
  | refused hwritten hover => exact .refused hwritten hover

/-- Where the writer will write again, nothing was refused. -/
theorem Ordered.written (h : Ordered s) (hagain : ¬ s.writer.Over s.mOpen) :
    s.written = s.delivered ++ s.writer.inHand ++ s.mWriteQueue := by
  cases h with
  | all hwritten => exact hwritten
  | refused _ hover => exact absurd hover hagain

theorem Ordered.step (h : Ordered s) (hstep : AdapterStep s a s') : Ordered s' := by
  have hdelivered := h.delivered
  cases hstep with
  | Write msg =>
    cases h with
    | all hwritten =>
      refine .all ?_
      simp only [SyncToAsyncBidiAdapter.Write, hwritten, List.append_assoc]
    | refused hwritten hover => exact .refused (hwritten.trans (List.prefix_append _ _)) hover
  | Finish state => exact h.finish state
  | leave hplace hclosed => exact .refused hdelivered trivial
  | enter hplace hopen =>
    have hwritten := h.written (by rw [hplace, hopen]; exact nofun)
    rw [hplace] at hwritten
    exact .all hwritten
  | pop msg rest hplace hopen hqueue =>
    have hwritten := h.written (by rw [hplace, hopen]; exact nofun)
    refine .all ?_
    simpa [hplace, hqueue, WriterPlace.inHand] using hwritten
  | begin msg hplace =>
    have hwritten := h.written (by rw [hplace]; exact id)
    rw [hplace] at hwritten
    exact .all hwritten
  | assign result hplace =>
    cases h with
    | all hwritten =>
      rw [hplace] at hwritten
      exact .all hwritten
    | refused _ hover =>
      rw [hplace] at hover
      exact .refused hdelivered hover
  | taken msg late hplace =>
    have hwritten := h.written (by rw [hplace]; exact id)
    refine .all ?_
    simpa [hplace, WriterPlace.inHand] using hwritten
  | refused msg late hplace => exact .refused hdelivered rfl
  | cancel hplace => exact (h.finish .CANCELLED).read .returned
  | read hplace place => exact h.read place
  | readReturns result place => exact h.read place

/-- A `Write` is late only if a `Finish` has completed. -/
def LateFinished (s : SyncToAsyncBidiAdapter W) : Prop :=
  ∀ msg, s.writer = .writing msg true → s.finished = true

theorem LateFinished.step (h : LateFinished s) (hstep : AdapterStep s a s') : LateFinished s' := by
  cases hstep with
  | Write msg => exact h
  | Finish state => exact fun _ _ => rfl
  | cancel hplace => exact fun _ _ => rfl
  | begin msg hplace => exact fun msg' hwriting => (WriterPlace.writing.inj hwriting).2
  | read hplace place => exact h
  | readReturns result place => exact h
  | _ => exact nofun

end Order

/-! ### Finished streams -/

/-- The stream stays finished: after a `Finish`, `mOpen` is not true, and the stream has taken only messages
whose `Write` had begun. -/
structure StaysFinished {W : Type} (s : SyncToAsyncBidiAdapter W) : Prop where
  closed : s.finished = true → s.mOpen = false
  none_late : s.late = []
  in_order : s.delivered <+: s.written

/-- No `Write` of the stream succeeds after a `Finish`, and no `Finish` comes between the return of a `Write`
that succeeded and the assignment of its result. -/
def Timely {W : Type} (s : SyncToAsyncBidiAdapter W) : AdapterAction W → Prop
  | .writeReturns true => s.finished = false
  | .Finish _ => s.writer ≠ .assign true
  | .reader => s.reader = .onCancel → s.writer ≠ .assign true
  | _ => True

/-- The writer is about to open a finished stream. -/
def Reopens {W : Type} (s : SyncToAsyncBidiAdapter W) : Prop := s.writer = .assign true ∧ s.finished = true

section Finished

variable {W : Type} {s s' : SyncToAsyncBidiAdapter W} {a : AdapterAction W}

/-- **One step**: the stream stays finished, and the writer is not about to open it, exactly if the step is
timely. -/
theorem timely_iff (hlate : LateFinished s) (h : StaysFinished s) (hreopens : ¬ Reopens s)
    (horder : s'.delivered <+: s'.written) (hstep : AdapterStep s a s') :
    StaysFinished s' ∧ ¬ Reopens s' ↔ Timely s a := by
  cases hstep with
  | Write msg => exact iff_of_true ⟨⟨h.closed, h.none_late, horder⟩, hreopens⟩ trivial
  | Finish state =>
    constructor
    · intro ⟨_, hnot⟩ hassign
      exact hnot ⟨hassign, rfl⟩
    · intro htimely
      exact ⟨⟨fun _ => rfl, h.none_late, horder⟩, fun hnext => htimely hnext.1⟩
  | cancel hplace =>
    constructor
    · intro ⟨_, hnot⟩ _ hassign
      exact hnot ⟨hassign, rfl⟩
    · intro htimely
      exact ⟨⟨fun _ => rfl, h.none_late, horder⟩, fun hnext => htimely hplace hnext.1⟩
  | assign result hplace =>
    refine iff_of_true ⟨⟨fun hfinished => ?_, h.none_late, horder⟩, nofun⟩ trivial
    cases result with
    | true => exact absurd ⟨hplace, hfinished⟩ hreopens
    | false => rfl
  | taken msg late hplace =>
    constructor
    · intro ⟨_, hnot⟩
      exact eq_false_of_ne_true fun hfinished => hnot ⟨rfl, hfinished⟩
    · intro (hfinished : s.finished = false)
      refine ⟨⟨h.closed, ?_, horder⟩, fun hnext => ?_⟩
      · cases late with
        | true => exact absurd (hlate msg hplace) (by simp [hfinished])
        | false => exact h.none_late
      · exact absurd hnext.2 (by simp [hfinished])
  | refused msg late hplace =>
    refine iff_of_true ⟨⟨h.closed, h.none_late, horder⟩, fun hnext => ?_⟩ trivial
    cases hnext.1
  | leave hplace hclosed => exact iff_of_true ⟨⟨h.closed, h.none_late, horder⟩, nofun⟩ trivial
  | enter hplace hopen => exact iff_of_true ⟨⟨h.closed, h.none_late, horder⟩, nofun⟩ trivial
  | pop msg rest hplace hopen hqueue => exact iff_of_true ⟨⟨h.closed, h.none_late, horder⟩, nofun⟩ trivial
  | begin msg hplace => exact iff_of_true ⟨⟨h.closed, h.none_late, horder⟩, nofun⟩ trivial
  | read hplace place =>
    exact iff_of_true ⟨⟨h.closed, h.none_late, horder⟩, hreopens⟩ fun hcancel => absurd hcancel hplace
  | readReturns result place => exact iff_of_true ⟨⟨h.closed, h.none_late, horder⟩, hreopens⟩ trivial

/-- The stream stays finished, also once the writer has gone on. -/
def Final (s : SyncToAsyncBidiAdapter W) : Prop :=
  StaysFinished s ∧ ∀ s', s.step .writer = .ok s' → StaysFinished s'

/-- What holds in every run. -/
structure AdapterInv (s : SyncToAsyncBidiAdapter W) : Prop where
  ordered : Ordered s
  late : LateFinished s

theorem inv_start : AdapterInv (SyncToAsyncBidiAdapter.start : SyncToAsyncBidiAdapter W) where
  ordered := .all rfl
  late := nofun

theorem AdapterInv.step (h : AdapterInv s) (hstep : s.step a = .ok s') : AdapterInv s' where
  ordered := h.ordered.step (adapterStep_of_step hstep)
  late := h.late.step (adapterStep_of_step hstep)

theorem final_iff (hinv : AdapterInv s) : Final s ↔ StaysFinished s ∧ ¬ Reopens s := by
  constructor
  · rintro ⟨h, hnext⟩
    refine ⟨h, fun ⟨hplace, hfinished⟩ => ?_⟩
    have hstep : s.step .writer = .ok { s with mOpen := true, writer := .test } := by
      simp only [SyncToAsyncBidiAdapter.step, SyncToAsyncBidiAdapter.startWriter, hplace]
    have hclosed := (hnext _ hstep).closed hfinished
    cases hclosed
  · rintro ⟨h, hreopens⟩
    refine ⟨h, fun s' hstep => ?_⟩
    have horder := (hinv.step hstep).ordered.delivered
    exact ((timely_iff hinv.late h hreopens horder (adapterStep_of_step hstep)).mpr trivial).1

/-- A step that is timely, as far as it can be taken. -/
def TimelyStep (s : SyncToAsyncBidiAdapter W) (a : AdapterAction W) : Prop :=
  (∃ s', s.step a = .ok s') → Timely s a

theorem final_step_iff (hinv : AdapterInv s) (h : Final s) (a : AdapterAction W) :
    (∀ s', s.step a = .ok s' → Final s') ↔ TimelyStep s a := by
  obtain ⟨hstays, hreopens⟩ := (final_iff hinv).mp h
  constructor
  · rintro hfinal ⟨s', hs'⟩
    have hinv' := hinv.step hs'
    exact (timely_iff hinv.late hstays hreopens hinv'.ordered.delivered (adapterStep_of_step hs')).mp
      ((final_iff hinv').mp (hfinal s' hs'))
  · intro htimely s' hs'
    have hinv' := hinv.step hs'
    exact (final_iff hinv').mpr
      ((timely_iff hinv.late hstays hreopens hinv'.ordered.delivered (adapterStep_of_step hs')).mpr
        (htimely ⟨s', hs'⟩))

end Finished

/-! ### Every interleaving -/

/-- **The stream stays finished exactly if `Finish` is timely**: in every state of the run, and still once the
writer has gone on. -/
theorem stays_finished_iff {W : Type} (acts : List (AdapterAction W)) :
    (∀ pre, pre <+: acts → ∀ s, SyncToAsyncBidiAdapter.run pre = .ok s → Final s) ↔
      Along SyncToAsyncBidiAdapter.step TimelyStep SyncToAsyncBidiAdapter.start acts := by
  have hstart : Final (SyncToAsyncBidiAdapter.start : SyncToAsyncBidiAdapter W) := by
    rw [final_iff inv_start]
    exact ⟨⟨nofun, rfl, List.prefix_refl _⟩, nofun⟩
  refine (forall_states_iff_along hstart).trans ?_
  refine along_iff_along (I := fun s => AdapterInv s ∧ Final s) ?_ ?_ ⟨inv_start, hstart⟩
  · intro s a ⟨hinv, hfinal⟩
    exact final_step_iff hinv hfinal a
  · intro s a s' ⟨hinv, hfinal⟩ htimely hstep
    exact ⟨hinv.step hstep, (final_step_iff hinv hfinal a).mpr htimely s' hstep⟩

/-- The stream is finished while a `Write` blocks; the writer opens it again, and writes another message. -/
def finishInWrite : List (AdapterAction Nat) :=
  [.Write 1, .writer, .writer, .writer, .Finish .OK, .writeReturns true, .writer, .Write 2, .writer, .writer,
    .writer, .writeReturns true]

theorem finishInWrite_reopens : ∃ s, SyncToAsyncBidiAdapter.run finishInWrite = .ok s ∧ s.finished = true ∧
    s.mOpen = true ∧ s.late = [2] ∧ ¬ StaysFinished s :=
  ⟨_, rfl, rfl, rfl, rfl, fun h => by cases h.none_late⟩

end Goldfish.Grpc
