import ControlBoard.Lib.Transition
import ControlBoard.SensorFrame

/-!
# The reference counts of polled devices

`use_protocol_v1` closes every sensor it has found, whether or not the open before it succeeded.
`rt_device_open` counts up only on success, and `rt_device_close` counts down whenever there is
something to count down, so a failed open of a device in use takes a reference from its user.
-/

namespace ControlBoard

/-- `rt_device_open` succeeds. -/
structure Device.Opens (d : Device) : Prop where
  init : d.activated = true ∨ d.deviceInit.getD 0 = 0
  idle : (d.standalone && d.opened) = false
  opens : rtSupported (d.deviceOpen.getD 0) = true

instance (d : Device) : Decidable d.Opens :=
  decidable_of_iff ((d.activated = true ∨ d.deviceInit.getD 0 = 0) ∧
      (d.standalone && d.opened) = false ∧ rtSupported (d.deviceOpen.getD 0) = true)
    ⟨fun h => ⟨h.1, h.2.1, h.2.2⟩, fun h => ⟨h.init, h.idle, h.opens⟩⟩

/-- A success counts up; a failure changes the activation at most. -/
theorem rtDeviceOpen_cases (d : Device) :
    (d.Opens ∧ (rtDeviceOpen d).2 =
      { d with activated := true, opened := true, refCount := d.refCount + 1 }) ∨
    (¬ d.Opens ∧ ∃ activated, (rtDeviceOpen d).2 = { d with activated := activated }) := by
  by_cases hinit : d.activated = true ∨ d.deviceInit.getD 0 = 0
  · have hzero : (if d.activated then 0 else d.deviceInit.getD 0) = (0 : Int) := by
      rcases hinit with hact | hzero
      · rw [hact, if_pos rfl]
      · rw [hzero, ite_self]
    by_cases hbusy : (d.standalone && d.opened) = true
    · refine .inr ⟨fun h => ?_, true, ?_⟩
      · rw [h.idle] at hbusy
        cases hbusy
      · simp [rtDeviceOpen, hzero, hbusy]
    · by_cases hopen : rtSupported (d.deviceOpen.getD 0) = true
      · refine .inl ⟨⟨hinit, Bool.eq_false_iff.mpr hbusy, hopen⟩, ?_⟩
        simp [rtDeviceOpen, hzero, hbusy, hopen]
      · refine .inr ⟨fun h => hopen h.opens, true, ?_⟩
        simp [rtDeviceOpen, hzero, hbusy, hopen]
  · refine .inr ⟨fun h => hinit h.init, d.activated, ?_⟩
    rw [not_or] at hinit
    simp only [rtDeviceOpen, if_neg hinit.1]
    rw [if_pos hinit.2]

/-- The assertion behind the counting up of `rt_device_open` does not stop the call. -/
def Device.PassesAssert (d : Device) : Prop := d.Opens → (rtDeviceOpen d).2.refCount ≠ 0

instance (d : Device) : Decidable d.PassesAssert := inferInstanceAs (Decidable (_ → _))

/-- The device after it was opened, read and closed. -/
def Device.polled (d : Device) : Device := (rtDeviceClose (rtDeviceOpen d).2).2

/-- The count is as before, and a device in use is still open. -/
structure Device.Kept (d d' : Device) : Prop where
  name : d'.name = d.name
  refCount : d'.refCount = d.refCount
  opened : d.refCount ≠ 0 → d.opened = true → d'.opened = true

namespace Device

variable {d d' d'' : Device}

theorem Kept.refl (d : Device) : Kept d d := ⟨rfl, rfl, fun _ h => h⟩

theorem Kept.trans (h : Kept d d') (h' : Kept d' d'') : Kept d d'' where
  name := h'.name.trans h.name
  refCount := h'.refCount.trans h.refCount
  opened hheld hopen := h'.opened (h.refCount ▸ hheld) (h.opened hheld hopen)

theorem polled_name (d : Device) : d.polled.name = d.name := by
  rw [polled, rtDeviceClose_name, rtDeviceOpen_name]

/-- A device that opens, or that nobody uses, is as before; another has one user less. -/
theorem polled_cases (h : d.PassesAssert) :
    ((d.refCount = 0 ∨ d.Opens) ∧ Kept d d.polled) ∨
      (d.refCount ≠ 0 ∧ ¬ d.Opens ∧ d.polled.refCount = d.refCount - 1) := by
  rcases rtDeviceOpen_cases d with ⟨hopens, hopen⟩ | ⟨hfails, activated, hopen⟩
  · have hcount : d.refCount + 1 ≠ 0 := by
      have := h hopens
      rwa [hopen] at this
    refine .inl ⟨.inr hopens, d.polled_name, ?_, ?_⟩
    · rw [polled, hopen]
      simp only [rtDeviceClose, if_neg hcount, UInt8.add_sub_cancel]
      split_ifs <;> rfl
    · intro hheld _
      rw [polled, hopen]
      simp only [rtDeviceClose, if_neg hcount, UInt8.add_sub_cancel]
      rw [if_pos hheld]
  · by_cases hheld : d.refCount = 0
    · refine .inl ⟨.inl hheld, d.polled_name, ?_, fun h => absurd hheld h⟩
      rw [polled, hopen]
      simp only [rtDeviceClose, if_pos hheld]
    · refine .inr ⟨hheld, hfails, ?_⟩
      rw [polled, hopen]
      simp only [rtDeviceClose, if_neg hheld]
      split_ifs <;> rfl

end Device

/-! ## The device list -/

theorem find_of_names_eq {R : Device → Device → Prop} (hname : ∀ d d', R d d' → d'.name = d.name)
    {devs devs' : List Device} (h : List.Forall₂ R devs devs') {name : List UInt8} {d : Device}
    (hd : rtDeviceFind devs name = some d) : ∃ d', rtDeviceFind devs' name = some d' ∧ R d d' := by
  induction h with
  | nil => cases hd
  | @cons e e' devs devs' he _ ih =>
    rw [rtDeviceFind_cons] at hd
    rw [rtDeviceFind_cons, hname e e' he]
    by_cases hfound : e.name = name.take rtNameMax
    · rw [if_pos hfound, Option.some_inj] at hd
      subst hd
      exact ⟨e', if_pos hfound, he⟩
    · rw [if_neg hfound] at hd ⊢
      exact ih hd

theorem find_setDevice {devs : List Device} {name : List UInt8} {d d' : Device}
    (hd : rtDeviceFind devs name = some d) (hname : d'.name = d.name) :
    rtDeviceFind (setDevice d' devs) name = some d' := by
  have hd' : d'.name = name.take rtNameMax := hname.trans (name_of_find hd)
  induction devs with
  | nil => cases hd
  | cons e devs ih =>
    unfold setDevice
    split
    · rw [rtDeviceFind_cons, if_pos hd']
    · rename_i he
      have hne : ¬ e.name = name.take rtNameMax := by rwa [← hd']
      rw [rtDeviceFind_cons, if_neg hne] at hd ⊢
      exact ih hd

/-- A call on the device that a name finds touches that device alone. -/
theorem forall₂_setDevice {R : Device → Device → Prop} (hrefl : ∀ d, R d d) {devs : List Device}
    {name : List UInt8} {d d' : Device} (hd : rtDeviceFind devs name = some d)
    (hname : d'.name = d.name) (h : R d d') : List.Forall₂ R devs (setDevice d' devs) := by
  have hd' : d'.name = name.take rtNameMax := hname.trans (name_of_find hd)
  induction devs with
  | nil => exact .nil
  | cons e devs ih =>
    unfold setDevice
    split
    · rename_i he
      rw [hd'] at he
      rw [rtDeviceFind_cons, if_pos he, Option.some_inj] at hd
      subst hd
      exact .cons h (List.forall₂_same.mpr fun e _ => hrefl e)
    · rename_i he
      rw [hd'] at he
      rw [rtDeviceFind_cons, if_neg he] at hd
      exact .cons (hrefl e) (ih hd)

theorem forall₂_comp {α β γ : Type} {R : α → β → Prop} {S : β → γ → Prop} {as : List α}
    {bs : List β} {cs : List γ} (h : List.Forall₂ R as bs) (h' : List.Forall₂ S bs cs) :
    List.Forall₂ (fun a c => ∃ b, R a b ∧ S b c) as cs := by
  induction h generalizing cs with
  | nil =>
    cases h'
    exact .nil
  | @cons a b as bs hab _ ih =>
    cases h' with
    | cons hbc hrest => exact .cons ⟨b, hab, hbc⟩ (ih hrest)

/-- The devices of a list are all as they were. -/
abbrev AllKept : List Device → List Device → Prop := List.Forall₂ Device.Kept

theorem AllKept.refl (devs : List Device) : AllKept devs devs :=
  List.forall₂_same.mpr fun d _ => .refl d

theorem AllKept.trans {devs devs' devs'' : List Device} (h : AllKept devs devs')
    (h' : AllKept devs' devs'') : AllKept devs devs'' := by
  refine (forall₂_comp h h').imp fun d d'' hd => ?_
  obtain ⟨d', hkept, hkept'⟩ := hd
  exact hkept.trans hkept'

/-! ## One poll of all sensors -/

/-- The assertions on the way of the loop hold, so that it comes to its end. -/
def PollReturns : List (List UInt8) → Assembly → Prop
  | [], _ => True
  | name :: names, u =>
    (∀ d ∈ rtDeviceFind u.devs name, d.PassesAssert) ∧ PollReturns names (readSensor u name)

instance instDecidablePollReturns : ∀ names u, Decidable (PollReturns names u)
  | [], _ => inferInstanceAs (Decidable True)
  | name :: names, u =>
    have : Decidable (PollReturns names (readSensor u name)) := instDecidablePollReturns _ _
    inferInstanceAs (Decidable ((∀ d ∈ rtDeviceFind u.devs name, d.PassesAssert) ∧ _))

/-- `use_protocol_v1` with its assertions; none if one of them stops the call. -/
def callProtocolV1 (devs : List Device) (s : SensorBuffer) : Option (List Device × SensorBuffer) :=
  if PollReturns ptc.sensor ⟨devs, s.buf, 0⟩ then some (useProtocolV1 devs s) else none

theorem callProtocolV1_eq_some {devs : List Device} {s : SensorBuffer}
    {r : List Device × SensorBuffer} :
    callProtocolV1 devs s = some r ↔
      PollReturns ptc.sensor ⟨devs, s.buf, 0⟩ ∧ useProtocolV1 devs s = r := by
  unfold callProtocolV1
  split
  · rename_i h
    simp [h]
  · rename_i h
    simp [h]

theorem useProtocolV1_eq (devs : List Device) (s : SensorBuffer) :
    useProtocolV1 devs s = ((ptc.sensor.foldl readSensor ⟨devs, s.buf, 0⟩).devs,
      ⟨(ptc.sensor.foldl readSensor ⟨devs, s.buf, 0⟩).size,
        (ptc.sensor.foldl readSensor ⟨devs, s.buf, 0⟩).buf⟩) := rfl

theorem readSensor_devs {u : Assembly} {name : List UInt8} {d : Device}
    (hd : rtDeviceFind u.devs name = some d) :
    (readSensor u name).devs = setDevice d.polled u.devs := by
  simp only [readSensor, hd]
  rfl

/-- The names of different sensors. -/
abbrev Distinct (names : List (List UInt8)) : Prop :=
  names.Pairwise fun a b => b.take rtNameMax ≠ a.take rtNameMax

section Loop

variable {names : List (List UInt8)} {u : Assembly} {name : List UInt8} {d : Device}

theorem find_foldl_readSensor_of_ne
    (h : ∀ other ∈ names, name.take rtNameMax ≠ other.take rtNameMax) :
    rtDeviceFind (names.foldl readSensor u).devs name = rtDeviceFind u.devs name := by
  induction names generalizing u with
  | nil => rfl
  | cons other names ih =>
    rw [List.foldl_cons, ih fun other' hother' => h other' (List.mem_cons_of_mem _ hother'),
      find_readSensor_of_ne u (h other List.mem_cons_self)]

/-- Each sensor is polled once. -/
theorem find_foldl_readSensor (hnames : Distinct names) (hname : name ∈ names)
    (hd : rtDeviceFind u.devs name = some d) :
    rtDeviceFind (names.foldl readSensor u).devs name = some d.polled := by
  induction names generalizing u with
  | nil => cases hname
  | cons head names ih =>
    rw [Distinct, List.pairwise_cons] at hnames
    rw [List.foldl_cons]
    rcases List.mem_cons.mp hname with rfl | htail
    · rw [find_foldl_readSensor_of_ne fun other hother => (hnames.1 other hother).symm,
        readSensor_devs hd]
      exact find_setDevice hd d.polled_name
    · apply ih hnames.2 htail
      rw [find_readSensor_of_ne u (hnames.1 name htail), hd]

/-- The assertions are about the devices as they were at the start. -/
theorem PollReturns.passesAssert (h : PollReturns names u) (hnames : Distinct names)
    (hname : name ∈ names) (hd : rtDeviceFind u.devs name = some d) : d.PassesAssert := by
  induction names generalizing u with
  | nil => cases hname
  | cons head names ih =>
    rw [Distinct, List.pairwise_cons] at hnames
    rcases List.mem_cons.mp hname with rfl | htail
    · exact h.1 d hd
    · apply ih h.2 hnames.2 htail
      rw [find_readSensor_of_ne u (hnames.1 name htail), hd]

/-- Where no open of a device in use fails, everything is as before. -/
theorem kept_foldl_readSensor (hreturns : PollReturns names u) (hnames : Distinct names)
    (hopens : ∀ name ∈ names, ∀ d ∈ rtDeviceFind u.devs name, d.refCount = 0 ∨ d.Opens) :
    AllKept u.devs (names.foldl readSensor u).devs := by
  induction names generalizing u with
  | nil => exact .refl u.devs
  | cons name names ih =>
    rw [Distinct, List.pairwise_cons] at hnames
    have hhead : AllKept u.devs (readSensor u name).devs := by
      cases hd : rtDeviceFind u.devs name with
      | none =>
        have hsame : (readSensor u name).devs = u.devs := by simp only [readSensor, hd]
        rw [hsame]
        exact .refl u.devs
      | some d =>
        rw [readSensor_devs hd]
        apply forall₂_setDevice Device.Kept.refl hd d.polled_name
        rcases Device.polled_cases (hreturns.1 d hd) with ⟨-, hkept⟩ | ⟨hheld, hfails, -⟩
        · exact hkept
        · rcases hopens name List.mem_cons_self d hd with hzero | hopen
          · exact absurd hzero hheld
          · exact absurd hopen hfails
    have htail := ih hreturns.2 hnames.2 (by
      intro other hother d hd
      rw [find_readSensor_of_ne u (hnames.1 other hother)] at hd
      exact hopens other (List.mem_cons_of_mem _ hother) d hd)
    exact hhead.trans htail

end Loop

/-! ## Polling cycles -/

/-- What a driver's operations do in one cycle. -/
structure Driver where
  deviceInit : Option Int
  deviceOpen : Option Int
  deviceClose : Option Int
  deviceRead : Option (Nat → Nat → Reading)

/-- The drivers of one cycle, by the names of their devices. -/
abbrev Drivers := List UInt8 → Driver

/-- The device with the outcomes of one cycle. -/
def Device.drive (drivers : Drivers) (d : Device) : Device :=
  { d with
    deviceInit := (drivers d.name).deviceInit
    deviceOpen := (drivers d.name).deviceOpen
    deviceClose := (drivers d.name).deviceClose
    deviceRead := (drivers d.name).deviceRead }

/-- The device table and `SensorBuf` between two cycles. -/
structure Polling where
  devs : List Device
  sensorBuf : SensorBuffer

namespace Polling

variable {s t : Polling} {drivers : Drivers}

def drive (s : Polling) (drivers : Drivers) : List Device := s.devs.map (Device.drive drivers)

/-- One call of `use_protocol_v1`; none if it does not return. -/
def poll (s : Polling) (drivers : Drivers) : Option Polling :=
  (callProtocolV1 (s.drive drivers) s.sensorBuf).map fun r => ⟨r.1, r.2⟩

/-- Every registered sensor that is in use opens in this cycle. -/
def SharedOpen (s : Polling) (drivers : Drivers) : Prop :=
  ∀ name ∈ ptc.sensor, ∀ d ∈ rtDeviceFind (s.drive drivers) name, d.refCount ≠ 0 → d.Opens

instance : Decidable (SharedOpen s drivers) :=
  inferInstanceAs (Decidable (∀ name ∈ ptc.sensor, ∀ d ∈ rtDeviceFind (s.drive drivers) name, _))

theorem kept_drive (s : Polling) (drivers : Drivers) :
    AllKept s.devs (s.drive drivers) :=
  List.forall₂_map_right_iff.mpr (List.forall₂_same.mpr fun _ _ => ⟨rfl, rfl, fun _ h => h⟩)

theorem distinct_ptc : Distinct ptc.sensor := by decide

theorem poll_eq_some (h : s.poll drivers = some t) :
    PollReturns ptc.sensor ⟨s.drive drivers, s.sensorBuf.buf, 0⟩ ∧
      t.devs = (ptc.sensor.foldl readSensor ⟨s.drive drivers, s.sensorBuf.buf, 0⟩).devs := by
  obtain ⟨r, hr, rfl⟩ := Option.map_eq_some_iff.mp h
  obtain ⟨hreturns, rfl⟩ := callProtocolV1_eq_some.mp hr
  exact ⟨hreturns, rfl⟩

theorem kept_of_sharedOpen (h : s.poll drivers = some t) (hshared : s.SharedOpen drivers) :
    AllKept s.devs t.devs := by
  obtain ⟨hreturns, hdevs⟩ := poll_eq_some h
  have hpoll := kept_foldl_readSensor hreturns distinct_ptc fun name hname d hd =>
    or_iff_not_imp_left.mpr (hshared name hname d hd)
  rw [← hdevs] at hpoll
  exact (s.kept_drive drivers).trans hpoll

/-- Two devices with one name and one count. -/
def SameCount (d d' : Device) : Prop := d'.name = d.name ∧ d'.refCount = d.refCount

/-- Where the counts are as before, every open of a sensor in use has succeeded. -/
theorem sharedOpen_of_sameCount (h : s.poll drivers = some t)
    (hcount : List.Forall₂ SameCount s.devs t.devs) : s.SharedOpen drivers := by
  obtain ⟨hreturns, hdevs⟩ := poll_eq_some h
  intro name hname d hd hheld
  have hpolled := find_foldl_readSensor (u := ⟨s.drive drivers, s.sensorBuf.buf, 0⟩) distinct_ptc
    hname hd
  rw [← hdevs] at hpolled
  have hdriven : List.Forall₂ SameCount (s.drive drivers) t.devs := by
    apply List.forall₂_map_left_iff.mpr
    exact hcount
  obtain ⟨d', hd', -, hsame⟩ := find_of_names_eq (fun _ _ h => h.1) hdriven hd
  rw [hpolled, Option.some_inj] at hd'
  subst hd'
  rcases Device.polled_cases (hreturns.passesAssert distinct_ptc hname hd) with
    ⟨hzero | hopens, -⟩ | ⟨-, -, hless⟩
  · exact absurd hzero hheld
  · exact hopens
  · -- one less is not the same
    rw [hsame] at hless
    grind

/-- In any number of polling cycles the reference counts stay what they were, and devices in use
stay open, exactly if in each cycle every registered sensor in use opens. -/
theorem polls_balanced_iff {cycles : List Drivers}
    (hrun : Transition.run poll s cycles = some t) :
    Transition.Always poll (fun r => AllKept s.devs r.devs) s cycles ↔
      Transition.StepsMeet poll SharedOpen s cycles := by
  refine Transition.always_iff_stepsMeet ?_ (.refl s.devs) hrun
  intro r drivers r' hkept hpoll
  constructor
  · intro hkept'
    apply sharedOpen_of_sameCount hpoll
    refine (forall₂_comp hkept.flip hkept').imp fun d d' hd => ?_
    obtain ⟨d₀, h, h'⟩ := hd
    exact ⟨h'.name.trans h.name.symm, h'.refCount.trans h.refCount.symm⟩
  · intro hshared
    exact hkept.trans (kept_of_sharedOpen hpoll hshared)

/-- The temperature sensor, held open by another thread. -/
def sharedTemp : Polling where
  devs := [{ tempSensor with activated := true, opened := true, refCount := 1 }]
  sensorBuf := ⟨0, fun _ => 0⟩

/-- Drivers whose `open` gives the result `ret`. -/
def openResult (ret : Int) : Drivers := fun _ => ⟨none, some ret, none, none⟩

theorem polls_balanced_shared :
    ∃ t, Transition.run poll sharedTemp [openResult 0, openResult 0] = some t ∧
      (Transition.Always poll (fun r => AllKept sharedTemp.devs r.devs) sharedTemp
          [openResult 0, openResult 0] ↔
        Transition.StepsMeet poll SharedOpen sharedTemp [openResult 0, openResult 0]) := by
  have hruns : (Transition.run poll sharedTemp [openResult 0, openResult 0]).isSome := by
    decide +kernel
  obtain ⟨t, ht⟩ := Option.isSome_iff_exists.mp hruns
  exact ⟨t, ht, polls_balanced_iff ht⟩

/-- One open fails, and the poll has closed the device for the thread that holds it. -/
theorem poll_closes_shared :
    ∃ t, Transition.run poll sharedTemp [openResult (-1)] = some t ∧
      ¬ Transition.Always poll (fun r => AllKept sharedTemp.devs r.devs) sharedTemp
        [openResult (-1)] := by
  have hrun : (Transition.run poll sharedTemp [openResult (-1)]).map (fun t =>
      t.devs.map fun d => (d.refCount, d.opened)) = some [(0, false)] := by
    decide +kernel
  obtain ⟨t, ht, hend⟩ := Option.map_eq_some_iff.mp hrun
  refine ⟨t, ht, fun h => ?_⟩
  have hpoll : sharedTemp.poll (openResult (-1)) = some t := by
    obtain ⟨u, hu, hrest⟩ := Transition.run_cons.mp ht
    rw [hu]
    exact hrest
  have hkept : AllKept sharedTemp.devs t.devs := h.2 t hpoll
  obtain ⟨d, devs, hd, -, hdevs⟩ := List.forall₂_cons_left_iff.mp hkept
  rw [hdevs, List.map_cons, List.cons.injEq, Prod.mk.injEq, hd.refCount] at hend
  exact absurd hend.1.1 (by decide)

end Polling

end ControlBoard
