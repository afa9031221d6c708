import ControlBoard.Kernel
import ControlBoard.Lib.Memory

/-!
# Kernel devices

The device calls of `Kernel/device.c` that the sensor thread makes. A device is found by the
first `RT_NAME_MAX` characters of its name. What its driver does is part of the device: the
results of `init`, `open` and `close`, and for each call of `read` the bytes that it stores with
the number it returns; a missing operation is `none`.
-/

namespace ControlBoard

/-- `RT_NAME_MAX` (`rtconfig.h`) -/
def rtNameMax : Nat := 8

/-- What a driver's `read` stores in the caller's buffer, and what it returns. -/
structure Reading where
  bytes : List UInt8
  ret : Nat
  deriving DecidableEq, Repr

/-- `struct rt_device`: the name as it was stored, the flags `RT_DEVICE_FLAG_ACTIVATED`,
`RT_DEVICE_FLAG_STANDALONE` and `RT_DEVICE_OFLAG_OPEN`, `ref_count`, and the driver. Its `read`
is given a position and the number of bytes asked for. -/
structure Device where
  name : List UInt8
  activated : Bool
  standalone : Bool
  opened : Bool
  refCount : UInt8
  deviceInit : Option Int
  deviceOpen : Option Int
  deviceClose : Option Int
  deviceRead : Option (Nat → Nat → Reading)

/-- What the driver makes of a call of its `read`, if it has one. -/
def Device.respond (d : Device) (pos size : Nat) : Option Reading :=
  d.deviceRead.map fun read => read pos size

/-- `RT_EOK`, or `-RT_ENOSYS` for an operation that a driver does not support. -/
def rtSupported (result : Int) : Bool := result == 0 || result == -6

/-- `rt_device_find`: the first device of the list that `rt_strncmp` takes for `name`. -/
def rtDeviceFind (devs : List Device) (name : List UInt8) : Option Device :=
  devs.find? fun d => d.name = name.take rtNameMax

/-- `rt_device_open` (`Kernel/device.c:240-295`). -/
def rtDeviceOpen (d : Device) : Int × Device :=
  let init := if d.activated then 0 else d.deviceInit.getD 0
  if init ≠ 0 then (init, d)
  else
    let d := { d with activated := true }
    if d.standalone && d.opened then (-7, d)
    else
      let result := d.deviceOpen.getD 0
      if rtSupported result then
        (result, { d with opened := true, refCount := d.refCount + 1 })
      else (result, d)

/-- `rt_device_close` (`Kernel/device.c:305-331`). -/
def rtDeviceClose (d : Device) : Int × Device :=
  if d.refCount = 0 then (-1, d)
  else
    let d := { d with refCount := d.refCount - 1 }
    if d.refCount ≠ 0 then (0, d)
    else
      let result := d.deviceClose.getD 0
      if rtSupported result then (result, { d with opened := false }) else (result, d)

/-- `rt_device_read` (`Kernel/device.c:346-370`). -/
def rtDeviceRead (d : Device) (pos size : Nat) : Reading :=
  if d.refCount = 0 then ⟨[], 0⟩ else (d.respond pos size).getD ⟨[], 0⟩

/-- The device list after a call on the device `d`. -/
def setDevice (d : Device) : List Device → List Device
  | [] => []
  | e :: devs => if e.name = d.name then d :: devs else e :: setDevice d devs

theorem rtDeviceOpen_name (d : Device) : (rtDeviceOpen d).2.name = d.name := by
  simp only [rtDeviceOpen]
  split_ifs <;> rfl

theorem rtDeviceClose_name (d : Device) : (rtDeviceClose d).2.name = d.name := by
  simp only [rtDeviceClose]
  split_ifs <;> rfl

theorem rtDeviceOpen_deviceRead (d : Device) : (rtDeviceOpen d).2.deviceRead = d.deviceRead := by
  simp only [rtDeviceOpen]
  split_ifs <;> rfl

theorem rtDeviceFind_cons (e : Device) (devs : List Device) (name : List UInt8) :
    rtDeviceFind (e :: devs) name =
      if e.name = name.take rtNameMax then some e else rtDeviceFind devs name := by
  by_cases h : e.name = name.take rtNameMax
  · simp [rtDeviceFind, h]
  · simp [rtDeviceFind, h]

/-- A call on one device leaves the others to be found as they are. -/
theorem find_setDevice_of_ne {d : Device} {name : List UInt8} (h : d.name ≠ name.take rtNameMax)
    (devs : List Device) : rtDeviceFind (setDevice d devs) name = rtDeviceFind devs name := by
  induction devs with
  | nil => rfl
  | cons e devs ih =>
    unfold setDevice
    split
    · rename_i he
      have hne : ¬ e.name = name.take rtNameMax := by rwa [he]
      rw [rtDeviceFind_cons, rtDeviceFind_cons, if_neg h, if_neg hne]
    · rw [rtDeviceFind_cons, rtDeviceFind_cons, ih]

theorem name_of_find {devs : List Device} {name : List UInt8} {d : Device}
    (h : rtDeviceFind devs name = some d) : d.name = name.take rtNameMax := by
  simpa using List.find?_some h

/-- The device can be opened, and its driver, called as the sensor thread calls it, stores exactly
`bytes` and returns their number. -/
structure Device.Delivers (d : Device) (bytes : List UInt8) : Prop where
  init : d.activated = true ∨ d.deviceInit.getD 0 = 0
  idle : (d.standalone && d.opened) = false
  opens : rtSupported (d.deviceOpen.getD 0) = true
  count : d.refCount ≠ 255
  read : d.respond 1 0 = some ⟨bytes, bytes.length⟩

instance (d : Device) (bytes : List UInt8) : Decidable (d.Delivers bytes) :=
  decidable_of_iff ((d.activated = true ∨ d.deviceInit.getD 0 = 0) ∧
      (d.standalone && d.opened) = false ∧ rtSupported (d.deviceOpen.getD 0) = true ∧
      d.refCount ≠ 255 ∧ d.respond 1 0 = some ⟨bytes, bytes.length⟩)
    ⟨fun ⟨hi, hd, ho, hc, hr⟩ => ⟨hi, hd, ho, hc, hr⟩,
      fun ⟨hi, hd, ho, hc, hr⟩ => ⟨hi, hd, ho, hc, hr⟩⟩

theorem Device.Delivers.read_open {d : Device} {bytes : List UInt8} (h : d.Delivers bytes) :
    rtDeviceRead (rtDeviceOpen d).2 1 0 = ⟨bytes, bytes.length⟩ := by
  have hinit : (if d.activated then 0 else d.deviceInit.getD 0) = (0 : Int) := by
    rcases h.init with hact | hzero
    · rw [hact, if_pos rfl]
    · rw [hzero, ite_self]
  have hcount : d.refCount + 1 ≠ 0 := by
    intro hzero
    apply h.count
    calc d.refCount = d.refCount + 1 - 1 := (UInt8.add_sub_cancel _ _).symm
      _ = 255 := by rw [hzero]; rfl
  have hread : (rtDeviceOpen d).2.respond 1 0 = d.respond 1 0 := by
    rw [Device.respond, rtDeviceOpen_deviceRead]
    rfl
  rw [rtDeviceRead, hread, h.read]
  simp [rtDeviceOpen, hinit, h.idle, h.opens, hcount]

end ControlBoard
