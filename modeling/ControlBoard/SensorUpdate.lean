import ControlBoard.DeviceBalance
import ControlBoard.SensorThread

/-!
# One update of the sensor frame

`update_sensor` as one call. It copies 255 bytes from address 0 where `SensorBuf.buf` should be
cleared, and it asks every driver for 0 bytes; so a driver that keeps to the read contract of
`rt_device_read` delivers nothing.
-/

namespace ControlBoard

/-- `update_sensor` (`sensor_control.c:289-304`); `vectors` is what lies at address 0. None if an
assertion stops the call. -/
def updateSensor (vectors : Nat → UInt8) (devs : List Device) (s : SensorBuffer) :
    Option (List Device × SensorBuffer) :=
  let s : SensorBuffer := ⟨0, Memory.write s.buf 0 (Memory.read vectors 0 255)⟩
  if ptc.version = 1 then callProtocolV1 devs s else some (devs, s)

/-! ## The call and the thread's steps -/

namespace SensorSys

variable {vectors : Nat → UInt8}

/-- The loop from any name on, and the store of the size behind it. -/
theorem run_reading (names : List (List UInt8)) (s : SensorSys) (size : UInt8) :
    Transition.run (step vectors) { s with pc := .reading names size }
        (List.replicate (names.length + 1) .sensor) =
      let u := names.foldl readSensor ⟨s.devs, s.sensorBuf.buf, size⟩
      some
        { s with
          devs := u.devs
          sensorBuf := ⟨u.size, u.buf⟩
          pc := .idle
          completed := s.completed ++ [Memory.read u.buf 0 u.size.toNat] } := by
  induction names generalizing s size with
  | nil => rfl
  | cons name names ih =>
    rw [List.length_cons, List.replicate_succ]
    exact ih (s.readNext name names size) (readSensor ⟨s.devs, s.sensorBuf.buf, size⟩ name).size

/-- An update that no other thread interrupts is one call of `update_sensor`. -/
theorem run_update {s : SensorSys} (hpc : s.pc = .idle) {r : List Device × SensorBuffer}
    (h : updateSensor vectors s.devs s.sensorBuf = some r) :
    Transition.run (step vectors) s (List.replicate (ptc.sensor.length + 2) .sensor) =
      some
        { s with
          devs := r.1
          sensorBuf := r.2
          pc := .idle
          completed := s.completed ++ [r.2.frame] } := by
  obtain ⟨-, rfl⟩ := callProtocolV1_eq_some.mp h
  have hclear : step vectors s .sensor = some (s.clear vectors) := by
    simp only [step, sensorStep, hpc]
  rw [List.replicate_succ, Transition.run, hclear, Option.bind_some]
  exact run_reading ptc.sensor (s.clear vectors) 0

end SensorSys

/-! ## The result under the read contract -/

/-- Asked for `k` bytes, the driver stores the first `k` of `full`, or all, and returns their
number. -/
def Device.Obeys (d : Device) (full : List UInt8) : Prop :=
  ∀ pos k, d.respond pos k = some ⟨full.take k, (full.take k).length⟩

/-- The drivers of the registered sensors keep to the contract, with full readings of the widths
of the protocol. -/
structure ReadContract (devs : List Device) (full : List UInt8 → List UInt8) : Prop where
  width : List.Forall₂ (fun w name => (full name).length = w) protocolWidths ptc.sensor
  obeys : ∀ name ∈ ptc.sensor, ∀ d ∈ rtDeviceFind devs name, d.Obeys (full name)

/-- The widths of the registered sensors. -/
def registeredWidths (devs : List Device) : List Nat :=
  ((protocolWidths.zip ptc.sensor).filter fun p => (rtDeviceFind devs p.2).isSome).map Prod.fst

/-- What an update should leave in `SensorBuf`: the full readings of the registered sensors in
order, and zeros behind them, whatever was there or elsewhere before. -/
structure UpdateResult (devs : List Device) (full : List UInt8 → List UInt8) (s' : SensorBuffer) :
    Prop where
  size : s'.size.toNat = Layout.width (registeredWidths devs)
  frame : s'.frame = Layout.pack (ptc.sensor.map fun name =>
    (rtDeviceFind devs name).map fun _ => full name)
  zeros : ∀ i, s'.size.toNat ≤ i → i < 255 → s'.buf i = 0
  independent : ∀ vectors s r, updateSensor vectors devs s = some r → r.2.frame = s'.frame

/-- A driver that keeps to the contract delivers nothing to the loop. -/
theorem readSensor_of_obeys {u : Assembly} {name : List UInt8}
    (h : ∀ d ∈ rtDeviceFind u.devs name, ∃ full, d.Obeys full) :
    (readSensor u name).buf = u.buf ∧ (readSensor u name).size = u.size := by
  cases hd : rtDeviceFind u.devs name with
  | none => simp only [readSensor, hd, and_self]
  | some d =>
    obtain ⟨full, hfull⟩ := h d hd
    have hread : rtDeviceRead (rtDeviceOpen d).2 1 0 = ⟨[], 0⟩ := by
      have hrespond : (rtDeviceOpen d).2.respond 1 0 = some ⟨[], 0⟩ := by
        rw [Device.respond, rtDeviceOpen_deviceRead]
        exact hfull 1 0
      rw [rtDeviceRead, hrespond]
      exact ite_self _
    simp only [readSensor, hd, hread, Memory.write_nil, true_and]
    exact UInt8.add_zero _

theorem foldl_readSensor_of_obeys {names : List (List UInt8)} {u : Assembly}
    (hnames : Distinct names)
    (h : ∀ name ∈ names, ∀ d ∈ rtDeviceFind u.devs name, ∃ full, d.Obeys full) :
    (names.foldl readSensor u).buf = u.buf ∧ (names.foldl readSensor u).size = u.size := by
  induction names generalizing u with
  | nil => exact ⟨rfl, rfl⟩
  | cons name names ih =>
    rw [Distinct, List.pairwise_cons] at hnames
    obtain ⟨hbuf, hsize⟩ := readSensor_of_obeys (h name List.mem_cons_self)
    obtain ⟨hbuf', hsize'⟩ := ih (u := readSensor u name) hnames.2 (by
      intro other hother d hd
      rw [find_readSensor_of_ne u (hnames.1 other hother)] at hd
      exact h other (List.mem_cons_of_mem _ hother) d hd)
    exact ⟨hbuf'.trans hbuf, hsize'.trans hsize⟩

/-- Under the contract an update leaves an empty frame, and the 255 bytes from address 0. -/
theorem updateSensor_of_contract {vectors : Nat → UInt8} {devs : List Device} {s : SensorBuffer}
    {full : List UInt8 → List UInt8} (hcontract : ReadContract devs full)
    {r : List Device × SensorBuffer} (h : updateSensor vectors devs s = some r) :
    r.2.size = 0 ∧ ∀ i < 255, r.2.buf i = vectors i := by
  obtain ⟨-, rfl⟩ := callProtocolV1_eq_some.mp h
  rw [useProtocolV1_eq]
  obtain ⟨hbuf, hsize⟩ := foldl_readSensor_of_obeys
    (u := ⟨devs, Memory.write s.buf 0 (Memory.read vectors 0 255), 0⟩) Polling.distinct_ptc
    fun name hname d hd => ⟨full name, hcontract.obeys name hname d hd⟩
  refine ⟨hsize, fun i hi => ?_⟩
  simp only [hbuf]
  have hlen : i < (Memory.read vectors 0 255).length := by simpa using hi
  have hadd : Memory.write s.buf 0 (Memory.read vectors 0 255) (0 + i) =
      (Memory.read vectors 0 255)[i] := Memory.write_add hlen
  rw [Nat.zero_add] at hadd
  rw [hadd, Memory.getElem_read, Nat.zero_add]

theorem registeredWidths_eq_nil {devs : List Device}
    (h : ∀ name ∈ ptc.sensor, rtDeviceFind devs name = none) : registeredWidths devs = [] := by
  rw [registeredWidths, List.map_eq_nil_iff, List.filter_eq_nil_iff]
  intro p hp
  simp [h p.2 (List.of_mem_zip hp).2]

/-- Every field of the protocol has a width. -/
theorem width_registeredWidths_ne_zero {devs : List Device} {name : List UInt8}
    (hname : name ∈ ptc.sensor) (h : (rtDeviceFind devs name).isSome) :
    Layout.width (registeredWidths devs) ≠ 0 := by
  have hfield : ∀ name ∈ ptc.sensor, ∃ p ∈ protocolWidths.zip ptc.sensor, p.2 = name ∧ p.1 ≠ 0 := by
    decide
  obtain ⟨p, hp, rfl, hwidth⟩ := hfield name hname
  have hmem : p.1 ∈ registeredWidths devs :=
    List.mem_map_of_mem (List.mem_filter.mpr ⟨hp, h⟩)
  intro hzero
  have hle := Layout.le_width hmem
  omega

/-- With drivers that keep to the read contract, `update_sensor` leaves what it should exactly if
no sensor of the protocol is registered and the memory from address 0 on is all zeros. -/
theorem updateSensor_result_iff {vectors : Nat → UInt8} {devs : List Device} {s : SensorBuffer}
    {full : List UInt8 → List UInt8} (hcontract : ReadContract devs full)
    {r : List Device × SensorBuffer} (h : updateSensor vectors devs s = some r) :
    UpdateResult devs full r.2 ↔
      (∀ name ∈ ptc.sensor, rtDeviceFind devs name = none) ∧ ∀ i < 255, vectors i = 0 := by
  obtain ⟨hsize, hbuf⟩ := updateSensor_of_contract hcontract h
  have hempty (b : SensorBuffer) (hb : b.size = 0) : b.frame = [] := by
    rw [SensorBuffer.frame, hb]
    rfl
  constructor
  · intro hresult
    refine ⟨fun name hname => ?_, fun i hi => ?_⟩
    · by_contra hsome
      have hwidth := hresult.size
      rw [hsize] at hwidth
      exact width_registeredWidths_ne_zero hname (Option.isSome_iff_ne_none.mpr hsome) hwidth.symm
    · rw [← hbuf i hi]
      exact hresult.zeros i (by rw [hsize]; exact Nat.zero_le i) hi
  · intro hcond
    obtain ⟨hnone, hzero⟩ := hcond
    refine ⟨?_, ?_, ?_, ?_⟩
    · rw [hsize, registeredWidths_eq_nil hnone]
      rfl
    · rw [hempty r.2 hsize, Layout.pack_eq_nil]
      intro j bs hj
      rw [List.getElem?_map, Option.map_eq_some_iff] at hj
      obtain ⟨name, hname, hfull⟩ := hj
      rw [hnone name (List.mem_of_getElem? hname)] at hfull
      cases hfull
    · intro i _ hi
      rw [hbuf i hi, hzero i hi]
    · intro vectors' s' r' hr'
      rw [hempty r.2 hsize, hempty r'.2 (updateSensor_of_contract hcontract hr').1]

/-- 29.1 degrees, and zero for the rest. -/
def sampleReading (name : List UInt8) : List UInt8 :=
  if name = ascii "temp" then [1, 0x23]
  else if name = ascii "humi" ∨ name = ascii "rain" then [0]
  else [0, 0]

/-- A temperature sensor whose driver keeps to the read contract. -/
def contractTemp : Device :=
  { tempSensor with
    deviceRead := some fun _ k =>
      ⟨(sampleReading (ascii "temp")).take k, ((sampleReading (ascii "temp")).take k).length⟩ }

theorem readContract_contractTemp : ReadContract [contractTemp] sampleReading where
  width := by decide
  obeys := by
    have htemp : ∀ name ∈ ptc.sensor, (rtDeviceFind [contractTemp] name).isSome →
        name = ascii "temp" := by
      decide
    intro name hname d hd
    have hfound : rtDeviceFind [contractTemp] name = some d := hd
    have hname := htemp name hname (by rw [hfound]; rfl)
    subst hname
    have hd : d = contractTemp := List.mem_singleton.mp (List.mem_of_find?_eq_some hfound)
    rw [hd]
    exact fun _ _ => rfl

theorem updateSensor_result_contractTemp :
    ∃ r, updateSensor (fun _ => 0) [contractTemp] ⟨0, fun _ => 0⟩ = some r ∧
      (UpdateResult [contractTemp] sampleReading r.2 ↔
        (∀ name ∈ ptc.sensor, rtDeviceFind [contractTemp] name = none) ∧
          ∀ i < 255, (fun _ => (0 : UInt8)) i = 0) := by
  have hreturns : (updateSensor (fun _ => 0) [contractTemp] ⟨0, fun _ => 0⟩).isSome := by
    decide +kernel
  obtain ⟨r, hr⟩ := Option.isSome_iff_exists.mp hreturns
  exact ⟨r, hr, updateSensor_result_iff readContract_contractTemp hr⟩

/-- The temperature is there, and the frame is empty. -/
theorem updateSensor_empty_frame :
    ReadContract [contractTemp] sampleReading ∧
      ∃ r, updateSensor (fun _ => 0) [contractTemp] ⟨0, fun _ => 0⟩ = some r ∧
        ¬ UpdateResult [contractTemp] sampleReading r.2 := by
  have hsize : (updateSensor (fun _ => 0) [contractTemp] ⟨0, fun _ => 0⟩).map (fun r =>
      r.2.size) = some 0 := by
    decide +kernel
  have hwidth : Layout.width (registeredWidths [contractTemp]) = 2 := by decide
  obtain ⟨r, hr, hzero⟩ := Option.map_eq_some_iff.mp hsize
  refine ⟨readContract_contractTemp, r, hr, fun h => ?_⟩
  have htwo := h.size
  rw [hzero, hwidth] at htwo
  exact absurd htwo (by decide)

end ControlBoard
