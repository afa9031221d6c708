import ControlBoard.Lib.Transition
import ControlBoard.SensorFrame

/-!
# Taking the frame from the sensor thread

`update_sensor` of the sensor thread and `sensor_get_data` of the main thread
(`applications/sensor_control.c`). The two threads have the same priority, so a call of
`sensor_get_data` can fall between any two steps of an update: the clearing of `SensorBuf`, one
device read after the other, the store of the size. The call itself has two steps, the section
with interrupts off and the return of the size behind it.
-/

namespace ControlBoard

/-- Where the sensor thread is: between updates, or in the loop of `use_protocol_v1` with the
names still to come and the local `size`. -/
inductive SensorPc where
  | idle
  | reading (names : List (List UInt8)) (size : UInt8)
  deriving DecidableEq, Repr

/-- A call of `sensor_get_data` that has returned: the caller's buffer at the call and at the
return, the returned size, whether the sensor thread was in an update, and the frames of the
updates completed by then. -/
structure GetData where
  before : Nat → UInt8
  after : Nat → UInt8
  n : UInt8
  updating : Bool
  completed : List (List UInt8)

/-- The state that the two threads share, their positions (a call in `sensor_get_data` is past
its critical section and has the caller's buffer before and after it), and the history. -/
structure SensorSys where
  devs : List Device
  sensorBuf : SensorBuffer
  pc : SensorPc
  getting : Option ((Nat → UInt8) × (Nat → UInt8))
  completed : List (List UInt8)
  returns : List GetData

/-- One step of some thread. -/
inductive SensorAction where
  /-- anything happens to the devices: a registration, a new measurement -/
  | devices (devs : List Device)
  | sensor
  /-- `sensor_get_data(buf)` is called and passes its critical section -/
  | call (buf : Nat → UInt8)
  /-- the pending call returns -/
  | ret

/-- `rt_memcmp(buf, src, n)`: the difference at the first place where the two differ. -/
def rtMemcmp (buf src : Nat → UInt8) (n : Nat) : Int :=
  match (List.range n).find? fun i => buf i ≠ src i with
  | some i => (buf i).toNat - (src i).toNat
  | none => 0

namespace SensorSys

variable (vectors : Nat → UInt8)

/-- The critical section of `sensor_get_data`, on the caller's buffer. The result of the
comparison is dropped. -/
def criticalSection (s : SensorSys) (buf : Nat → UInt8) : Nat → UInt8 :=
  let _ := rtMemcmp buf s.sensorBuf.buf s.sensorBuf.size.toNat
  buf

/-- The start of `update_sensor`: `rt_memcpy(SensorBuf.buf, 0, 255)` copies from address 0,
where `vectors` lie. -/
def clear (s : SensorSys) : SensorSys :=
  { s with
    sensorBuf := ⟨0, Memory.write s.sensorBuf.buf 0 (Memory.read vectors 0 255)⟩
    pc := if ptc.version = 1 then .reading (ptc.sensor.take ptc.amount.toNat) 0 else .idle }

/-- One turn of the loop. -/
def readNext (s : SensorSys) (name : List UInt8) (names : List (List UInt8)) (size : UInt8) :
    SensorSys :=
  let u := readSensor ⟨s.devs, s.sensorBuf.buf, size⟩ name
  { s with
    devs := u.devs
    sensorBuf := ⟨s.sensorBuf.size, u.buf⟩
    pc := .reading names u.size }

/-- `SensorBuf.size = size`; the update is complete. -/
def storeSize (s : SensorSys) (size : UInt8) : SensorSys :=
  { s with
    sensorBuf := ⟨size, s.sensorBuf.buf⟩
    pc := .idle
    completed := s.completed ++ [Memory.read s.sensorBuf.buf 0 size.toNat] }

/-- One step of the sensor thread. -/
def sensorStep (s : SensorSys) : SensorSys :=
  match s.pc with
  | .idle => s.clear vectors
  | .reading (name :: names) size => s.readNext name names size
  | .reading [] size => s.storeSize size

/-- One step of the board. -/
def step (s : SensorSys) : SensorAction → Option SensorSys
  | .devices devs => some { s with devs := devs }
  | .sensor => some (s.sensorStep vectors)
  | .call buf =>
    if s.getting.isSome then none
    else some { s with getting := some (buf, s.criticalSection buf) }
  | .ret =>
    s.getting.map fun (before, after) =>
      { s with
        getting := none
        returns := s.returns ++
          [⟨before, after, s.sensorBuf.size, decide (s.pc ≠ .idle), s.completed⟩] }

/-- `SensorBuf={0,{0}}`, and no update yet. -/
def start (devs : List Device) : SensorSys where
  devs := devs
  sensorBuf := ⟨0, fun _ => 0⟩
  pc := .idle
  getting := none
  completed := []
  returns := []

end SensorSys

/-- The returned size and the bytes are those of one completed frame, or 0 if there is none,
and the rest of the buffer is as it was. -/
def GetData.Snapshot (g : GetData) : Prop :=
  ((g.completed = [] ∧ g.n = 0) ∨
      ∃ frame ∈ g.completed, frame.length = g.n.toNat ∧ Memory.read g.after 0 g.n.toNat = frame) ∧
    ∀ i, g.n.toNat ≤ i → g.after i = g.before i

/-- No update was complete; or the sensor thread was in an update, and the frame of an earlier one
is empty; or it was not, and the buffer held before the call a completed frame that is as long as
the last. -/
def GetData.AlreadyThere (g : GetData) : Prop :=
  match g.completed.getLast? with
  | none => True
  | some last =>
    if g.updating then [] ∈ g.completed
    else ∃ frame ∈ g.completed, frame.length = last.length ∧
      Memory.read g.before 0 last.length = frame

/-- What `SensorBuf.size` holds: 0 as long as an update is under way, and the length of the last
frame between two of them. -/
def shownSize (updating : Bool) (completed : List (List UInt8)) : Nat :=
  if updating then 0 else (completed.getLast?.map List.length).getD 0

/-- A call that leaves the buffer alone and returns the size that is shown. -/
theorem GetData.snapshot_iff {g : GetData} (hbuf : g.after = g.before)
    (hn : g.n.toNat = shownSize g.updating g.completed) : g.Snapshot ↔ g.AlreadyThere := by
  have hrest : ∀ i, g.n.toNat ≤ i → g.after i = g.before i := fun i _ => congrFun hbuf i
  rw [Snapshot, AlreadyThere, and_iff_left hrest, hbuf, hn]
  cases hlast : g.completed.getLast? with
  | none =>
    have hnone : g.completed = [] := List.getLast?_eq_none_iff.mp hlast
    have hzero : g.n = 0 := by
      apply UInt8.toNat_inj.mp
      rw [hn, shownSize, hlast]
      split <;> rfl
    exact iff_of_true (.inl ⟨hnone, hzero⟩) trivial
  | some last =>
    have hsome : g.completed ≠ [] := by
      intro hnone
      rw [hnone] at hlast
      cases hlast
    rw [or_iff_right fun h => hsome h.1]
    by_cases hupdating : g.updating = true
    · simp [shownSize, hupdating, Memory.read]
    · simp [shownSize, hupdating, hlast]

namespace SensorSys

variable {vectors : Nat → UInt8} {s s' : SensorSys} {a : SensorAction}

/-- `SensorBuf.size` tells where the sensor thread is, and calls leave the buffer alone. -/
structure Untouched (s : SensorSys) : Prop where
  size : s.sensorBuf.size.toNat = shownSize (decide (s.pc ≠ .idle)) s.completed
  getting : ∀ bufs ∈ s.getting, bufs.2 = bufs.1
  returns : ∀ g ∈ s.returns,
    g.after = g.before ∧ g.n.toNat = shownSize g.updating g.completed

theorem untouched_start (devs : List Device) : Untouched (start devs) where
  size := rfl
  getting := nofun
  returns := nofun

theorem Untouched.sensorStep (h : Untouched s) : Untouched (s.sensorStep vectors) := by
  unfold SensorSys.sensorStep
  split
  · exact ⟨rfl, h.getting, h.returns⟩
  · rename_i name names size hpc
    refine ⟨?_, h.getting, h.returns⟩
    have hsize := h.size
    rw [hpc] at hsize
    exact hsize
  · refine ⟨?_, h.getting, h.returns⟩
    simp [storeSize, shownSize]

theorem Untouched.step (h : Untouched s) (hstep : step vectors s a = some s') : Untouched s' := by
  cases a with
  | devices devs =>
    cases hstep
    exact ⟨h.size, h.getting, h.returns⟩
  | sensor =>
    cases hstep
    exact h.sensorStep
  | call buf =>
    simp only [SensorSys.step] at hstep
    split at hstep
    · cases hstep
    · cases hstep
      refine ⟨h.size, ?_, h.returns⟩
      intro bufs hbufs
      cases hbufs
      rfl
  | ret =>
    obtain ⟨bufs, hbufs, rfl⟩ := Option.map_eq_some_iff.mp hstep
    refine ⟨h.size, nofun, ?_⟩
    intro g hg
    rcases List.mem_append.mp hg with hg | hg
    · exact h.returns g hg
    · rw [List.mem_singleton.mp hg]
      exact ⟨h.getting bufs hbufs, h.size⟩

/-- A call of `sensor_get_data`, wherever it falls, gives a completed frame exactly if no update
is complete, or an update is under way and an earlier frame was empty, or none is and a frame as
long as the last was in the caller's buffer before. -/
theorem getData_snapshot_iff {devs : List Device} {actions : List SensorAction}
    (hrun : Transition.run (step vectors) (start devs) actions = some s) {g : GetData}
    (hg : g ∈ s.returns) : g.Snapshot ↔ g.AlreadyThere := by
  have h : Untouched s :=
    Transition.run_invariant (fun _ _ _ => Untouched.step) (untouched_start devs) hrun
  exact GetData.snapshot_iff (h.returns g hg).1 (h.returns g hg).2

/-- One whole update, and a call behind it. -/
def updateThenGet : List SensorAction :=
  List.replicate 9 .sensor ++ [.call fun _ => 0, .ret]

/-- The caller gets the size of the frame and none of its bytes. -/
theorem getData_without_bytes :
    ∃ s, Transition.run (step fun _ => 0) (start [tempSensor]) updateThenGet = some s ∧
      ∃ g ∈ s.returns, ¬ g.Snapshot := by
  have hrun : (Transition.run (step fun _ => 0) (start [tempSensor]) updateThenGet).map (fun s =>
      s.returns.map fun g => (g.n, Memory.read g.after 0 2, g.completed)) =
      some [(2, [0, 0], [[1, 0x23]])] := by
    decide +kernel
  obtain ⟨s, hs, hreturns⟩ := Option.map_eq_some_iff.mp hrun
  obtain ⟨g, hg, hend⟩ := List.mem_map.mp (hreturns ▸ List.mem_singleton_self _)
  simp only [Prod.mk.injEq] at hend
  obtain ⟨hn, hbytes, hcompleted⟩ := hend
  refine ⟨s, hs, g, hg, ?_⟩
  intro hsnapshot
  rcases hsnapshot with ⟨⟨hnone, -⟩ | ⟨frame, hframe, -, hread⟩, -⟩
  · simp [hcompleted] at hnone
  · rw [hcompleted, List.mem_singleton] at hframe
    rw [hn, hframe] at hread
    rw [show (2 : UInt8).toNat = 2 from rfl, hbytes] at hread
    exact absurd hread (by decide)

theorem getData_snapshot_update :
    ∃ s, Transition.run (step fun _ => 0) (start [tempSensor]) updateThenGet = some s ∧
      ∃ g ∈ s.returns, g.Snapshot ↔ g.AlreadyThere := by
  have hrun : (Transition.run (step fun _ => 0) (start [tempSensor]) updateThenGet).map (fun s =>
      s.returns.length) = some 1 := by
    decide +kernel
  obtain ⟨s, hs, hlen⟩ := Option.map_eq_some_iff.mp hrun
  obtain ⟨g, hg⟩ := List.exists_mem_of_length_pos (hlen ▸ Nat.one_pos)
  exact ⟨s, hs, g, hg, getData_snapshot_iff hs hg⟩

end SensorSys

end ControlBoard
