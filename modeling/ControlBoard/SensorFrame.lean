import ControlBoard.Device
import ControlBoard.Lib.Layout

/-!
# The frame of the weather station

`use_protocol_v1` of `applications/sensor_control.c` and the protocol table of
`applications/protocol.h`. The receiver decodes a frame by the offsets that the widths of the
protocol fix; the sender appends what the registered sensors deliver.
-/

namespace ControlBoard

/-- `SensorBuffer_s`; `buf` is the memory from the array on. -/
structure SensorBuffer where
  size : UInt8
  buf : Nat → UInt8

/-- `sProtocol_s`, without the unused end of the names. -/
structure Protocol where
  version : UInt8
  amount : UInt8
  sensor : List (List UInt8)

/-- `Ptc` -/
def ptc : Protocol where
  version := 1
  amount := 7
  sensor := [ascii "temp", ascii "humi", ascii "windDpend", ascii "windDirection", ascii "pm2_5",
    ascii "light", ascii "rain"]

/-- The widths in the comment of `protocol.h`, in the order of `Ptc.sensor`. -/
def protocolWidths : List Nat := [2, 1, 2, 2, 2, 2, 1]

/-- The locals and the buffer of `use_protocol_v1` in its loop. -/
structure Assembly where
  devs : List Device
  buf : Nat → UInt8
  size : UInt8

/-- The loop body for one sensor name. -/
def readSensor (u : Assembly) (name : List UInt8) : Assembly :=
  match rtDeviceFind u.devs name with
  | none => u
  | some d =>
    let d := (rtDeviceOpen d).2
    let r := rtDeviceRead d 1 0
    { devs := setDevice (rtDeviceClose d).2 u.devs
      buf := Memory.write u.buf u.size.toNat r.bytes
      size := u.size + UInt8.ofNat r.ret }

/-- `use_protocol_v1` (`sensor_control.c:268-286`). -/
def useProtocolV1 (devs : List Device) (s : SensorBuffer) : List Device × SensorBuffer :=
  let u := (ptc.sensor.take ptc.amount.toNat).foldl readSensor ⟨devs, s.buf, 0⟩
  (u.devs, ⟨u.size, u.buf⟩)

/-- The bytes that a caller may take for the frame. -/
def SensorBuffer.frame (s : SensorBuffer) : List UInt8 := Memory.read s.buf 0 s.size.toNat

/-- What the driver of a registered sensor reads. -/
def Device.reading (d : Device) : List UInt8 := ((d.respond 1 0).getD ⟨[], 0⟩).bytes

/-- The readings of the registered sensors among some names. -/
def readings (devs : List Device) (names : List (List UInt8)) : List (Option (List UInt8)) :=
  names.map fun name => (rtDeviceFind devs name).map Device.reading

/-- Each registered sensor delivers exactly the width of its field. -/
def DeliverWidths (devs : List Device) : List Nat → List (List UInt8) → Prop :=
  List.Forall₂ fun w name => ∀ d ∈ rtDeviceFind devs name,
    d.Delivers d.reading ∧ d.reading.length = w

instance (devs : List Device) (ws : List Nat) (names : List (List UInt8)) :
    Decidable (DeliverWidths devs ws names) := inferInstanceAs (Decidable (List.Forall₂ _ ws names))

theorem fits_readings {devs : List Device} {ws : List Nat} {names : List (List UInt8)}
    (h : DeliverWidths devs ws names) : Layout.Fits ws (readings devs names) := by
  induction h with
  | nil => exact .nil
  | @cons w name ws names hhead _ ih =>
    refine .cons ?_ ih
    intro bs hbs
    obtain ⟨d, hd, rfl⟩ := Option.map_eq_some_iff.mp hbs
    exact (hhead d hd).2

/-- One sensor's step leaves the others to be found as they are. -/
theorem find_readSensor_of_ne (u : Assembly) {name other : List UInt8}
    (h : other.take rtNameMax ≠ name.take rtNameMax) :
    rtDeviceFind (readSensor u name).devs other = rtDeviceFind u.devs other := by
  cases hd : rtDeviceFind u.devs name with
  | none => simp only [readSensor, hd]
  | some d =>
    simp only [readSensor, hd]
    apply find_setDevice_of_ne
    rw [rtDeviceClose_name, rtDeviceOpen_name, name_of_find hd]
    exact Ne.symm h

/-- One sensor's step appends its reading. -/
theorem readSensor_spec (u : Assembly) (name : List UInt8) (w : Nat)
    (hdeliver : ∀ d ∈ rtDeviceFind u.devs name, d.Delivers d.reading ∧ d.reading.length = w)
    (hfits : u.size.toNat + w < 256) :
    let bytes := ((rtDeviceFind u.devs name).map Device.reading).getD []
    (readSensor u name).size.toNat = u.size.toNat + bytes.length ∧
    Memory.read (readSensor u name).buf 0 (u.size.toNat + bytes.length) =
      Memory.read u.buf 0 u.size.toNat ++ bytes := by
  cases hd : rtDeviceFind u.devs name with
  | none =>
    simp only [readSensor, hd]
    exact ⟨by simp, by simp⟩
  | some d =>
    obtain ⟨hdelivers, hlen⟩ := hdeliver d hd
    simp only [readSensor, hd, hdelivers.read_open, Option.map_some, Option.getD_some]
    refine ⟨?_, ?_⟩
    · rw [UInt8.toNat_add, UInt8.toNat_ofNat']
      omega
    · rw [Memory.read_add, Nat.zero_add, Memory.read_write_same, Memory.read_write_disjoint]
      left
      omega

/-- The loop appends the readings of the registered sensors, one behind the other. -/
theorem foldl_readSensor {devs : List Device} {ws : List Nat} {names : List (List UInt8)}
    (hdeliver : DeliverWidths devs ws names) (u : Assembly)
    (hdevs : ∀ name ∈ names, rtDeviceFind u.devs name = rtDeviceFind devs name)
    (hfits : u.size.toNat + Layout.width ws < 256)
    (hnames : names.Pairwise fun a b => b.take rtNameMax ≠ a.take rtNameMax) :
    Memory.read (names.foldl readSensor u).buf 0 (names.foldl readSensor u).size.toNat =
      Memory.read u.buf 0 u.size.toNat ++ Layout.pack (readings devs names) := by
  induction hdeliver generalizing u with
  | nil => simp [readings, Layout.pack]
  | @cons w name ws names hhead htail ih =>
    rw [Layout.width] at hfits
    rw [List.pairwise_cons] at hnames
    have hfind := hdevs name List.mem_cons_self
    obtain ⟨hsize, hbytes⟩ := readSensor_spec u name w
      (by rw [hfind]; exact hhead) (by omega)
    rw [hfind] at hsize hbytes
    have hlen : (((rtDeviceFind devs name).map Device.reading).getD []).length ≤ w := by
      cases hd : rtDeviceFind devs name with
      | none => exact Nat.zero_le w
      | some d =>
        exact Nat.le_of_eq (hhead d hd).2
    have hdevs' : ∀ other ∈ names,
        rtDeviceFind (readSensor u name).devs other = rtDeviceFind devs other := by
      intro other hother
      rw [find_readSensor_of_ne u (hnames.1 other hother),
        hdevs other (List.mem_cons_of_mem _ hother)]
    have hrest := ih (readSensor u name) hdevs' (by omega) hnames.2
    rw [List.foldl_cons, hrest, hsize, hbytes, List.append_assoc]
    rfl

theorem frame_useProtocolV1 {devs : List Device} (s : SensorBuffer)
    (h : DeliverWidths devs protocolWidths ptc.sensor) :
    (useProtocolV1 devs s).2.frame = Layout.pack (readings devs ptc.sensor) := by
  have hloop := foldl_readSensor h ⟨devs, s.buf, 0⟩ (fun _ _ => rfl)
    (by simp [protocolWidths, Layout.width]) (by decide)
  exact hloop

/-- Decoding the frame by the fixed offsets of the protocol gives the readings of the registered
sensors, and nothing for the others, exactly if no sensor is missing before a registered one. -/
theorem frame_decodes_iff {devs : List Device} (s : SensorBuffer)
    (h : DeliverWidths devs protocolWidths ptc.sensor) :
    Layout.Decodes protocolWidths (readings devs ptc.sensor) (useProtocolV1 devs s).2.frame ↔
      Layout.NoGap (readings devs ptc.sensor) := by
  rw [frame_useProtocolV1 s h]
  exact Layout.decodes_pack_iff (fits_readings h) (by decide)

/-- A registered sensor whose driver only reads. -/
def Device.sample (name bytes : List UInt8) : Device where
  name := name.take rtNameMax
  activated := false
  standalone := false
  opened := false
  refCount := 0
  deviceInit := none
  deviceOpen := none
  deviceClose := none
  deviceRead := some fun _ _ => ⟨bytes, bytes.length⟩

/-- 29.1 degrees. -/
def tempSensor : Device := .sample (ascii "temp") [1, 0x23]

/-- 35 percent. -/
def humiSensor : Device := .sample (ascii "humi") [35]

/-- The first four sensors, registered in another order. -/
def fourSensors : List Device :=
  [.sample (ascii "windDirection") [0, 90], humiSensor, tempSensor,
    .sample (ascii "windDpend") [0, 12]]

theorem frame_decodes_four :
    Layout.Decodes protocolWidths (readings fourSensors ptc.sensor)
        (useProtocolV1 fourSensors ⟨0, fun _ => 0⟩).2.frame ↔
      Layout.NoGap (readings fourSensors ptc.sensor) :=
  frame_decodes_iff _ (by decide)

/-- Without a temperature sensor, the humidity is not where the protocol puts it. -/
theorem frame_shifted :
    DeliverWidths [humiSensor] protocolWidths ptc.sensor ∧
      ¬ Layout.Decodes protocolWidths (readings [humiSensor] ptc.sensor)
        (useProtocolV1 [humiSensor] ⟨0, fun _ => 0⟩).2.frame := by
  refine ⟨by decide, fun h => ?_⟩
  have hhumi := h 1 1 (some [35]) rfl (by decide)
  revert hhumi
  decide

end ControlBoard
