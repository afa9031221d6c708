import ControlBoard.Board

/-!
# Node information and the join sequence

The part of `applications/radio_control.c` that runs to its end in one thread: the stored
node information (`read_node_info`, `save_node_info`, `clear_node_info`), the configuration
sequence `raido_join_config_join`, and the shell command `radio_set`. `fal` says whether
`PKG_USING_FAL` is defined.
-/

namespace ControlBoard

/-- `RadioInfo_s` -/
structure RadioInfo where
  OTAA : AtRadioInfo
  deriving DecidableEq

namespace RadioInfo

/-- `sizeof(RadioInfo_s)`; character arrays need no padding. -/
def size : Nat := 67

/-- The structure as it lies in memory. -/
def toBytes (info : RadioInfo) : List UInt8 := info.OTAA.fromDevEui

def ofBytes (bs : List UInt8) (h : bs.length = size) : RadioInfo where
  OTAA :=
    { devEui := bs.take 17
      appEui := (bs.drop 17).take 17
      appKey := bs.drop 34
      devEui_length := by simp [h, size]
      appEui_length := by simp [h, size]
      appKey_length := by simp [h, size] }

@[simp] theorem length_toBytes (info : RadioInfo) : info.toBytes.length = size := by
  simp [toBytes, AtRadioInfo.fromDevEui, info.OTAA.devEui_length, info.OTAA.appEui_length,
    info.OTAA.appKey_length, size]

theorem ofBytes_toBytes (info : RadioInfo) (h : info.toBytes.length = size) :
    ofBytes info.toBytes h = info := by
  obtain ⟨⟨devEui, appEui, appKey, hd, ha, hk⟩⟩ := info
  simp only [ofBytes, toBytes, AtRadioInfo.fromDevEui, mk.injEq, AtRadioInfo.mk.injEq]
  refine ⟨?_, ?_, ?_⟩
  · simp [hd]
  · simp [hd, ha]
  · simp [List.drop_append, hd, ha]

end RadioInfo

/-- `read_node_info` (`radio_control.c:124-144`); `info` is what the caller's structure holds
on entry. -/
def readNodeInfo (info : RadioInfo) : Prog Io (Int × RadioInfo) := do
  if ← falPartitionFind (ascii "eeprom2") then
    let info :=
      match ← falPartitionRead 0 RadioInfo.size with
      | some bs => RadioInfo.ofBytes bs.1 bs.2
      | none => info
    -- the other two conjuncts, `appKey != 0` and `devEui != 0`, are addresses of arrays
    if info.OTAA.appEui.head? ≠ some 0 then return (3, info) else return (0, info)
  else return (1, info)

/-- `save_node_info` (`radio_control.c:147-160`). -/
def saveNodeInfo (info : RadioInfo) : Prog Io Int := do
  if ← falPartitionFind (ascii "eeprom2") then
    let _ ← falPartitionErase 0 RadioInfo.size
    rtThreadMdelay 1000
    let _ ← falPartitionWrite 0 info.toBytes
    return 0
  else return 1

/-- `clear_node_info` (`radio_control.c:162-172`). -/
def clearNodeInfo : Prog Io Int := do
  if ← falPartitionFind (ascii "eeprom2") then
    let _ ← falPartitionErase 0 RadioInfo.size
    return 0
  else return 1

/-- `raido_join_config_join` with an info (`radio_control.c:197-222`). -/
def raidoJoinGiven (fal : Bool) (info : RadioInfo) : Prog Io AtError := do
  if fal then
    let _ ← saveNodeInfo info
  let re ← atRadioSetOTAAInfo (some info.OTAA)
  if re ≠ .ok then return re
  let re ← atRadioSetAutojoin 1
  if re ≠ .ok then return re
  atRadioJoinNet

/-- `raido_join_config_join` (`radio_control.c:179-223`). For `RT_NULL` it reads the stored
info into the local `useInfo` and calls itself with it, read here as passing `&UseInfo`. -/
def raidoJoinConfigJoin (fal : Bool) (useInfo : RadioInfo) : Option RadioInfo → Prog Io AtError
  | some info => raidoJoinGiven fal info
  | none => do
    if fal then
      let (ret, useInfo) ← readNodeInfo useInfo
      if ret = 0 then
        let _ ← raidoJoinGiven fal useInfo
    return .ok

/-- The three arguments with which `radio_set` goes past its length checks. -/
structure OtaaArgs where
  deveui : CString
  appeui : CString
  appkey : CString
  deveui_length : deveui.1.length = 16
  appeui_length : appeui.1.length = 16
  appkey_length : appkey.1.length = 32
  deriving DecidableEq

/-- The `info` that the three `strcpy` of `radio_set` fill. -/
def OtaaArgs.info (args : OtaaArgs) : RadioInfo where
  OTAA :=
    { devEui := args.deveui.1 ++ [0]
      appEui := args.appeui.1 ++ [0]
      appKey := args.appkey.1 ++ [0]
      devEui_length := by simp [args.deveui_length]
      appEui_length := by simp [args.appeui_length]
      appKey_length := by simp [args.appkey_length] }

/-- `radio_set` (`radio_control.c:293-321`). -/
def radioSet (fal : Bool) (useInfo : RadioInfo) (argv : List CString) : Prog Io Unit :=
  match argv with
  | [_, deveui, appeui, appkey] =>
    if hd : deveui.1.length ≠ 16 then return
    else if ha : appeui.1.length ≠ 16 then return
    else if hk : appkey.1.length ≠ 32 then return
    else do
      let args : OtaaArgs := ⟨deveui, appeui, appkey, not_not.mp hd, not_not.mp ha, not_not.mp hk⟩
      let _ ← raidoJoinConfigJoin fal useInfo (some args.info)
      return
  | _ => return

/-- The accepted arguments reach the join sequence. -/
theorem radioSet_args (fal : Bool) (useInfo : RadioInfo) (name : CString) (args : OtaaArgs) :
    radioSet fal useInfo [name, args.deveui, args.appeui, args.appkey] =
      (do let _ ← raidoJoinConfigJoin fal useInfo (some args.info)) := by
  simp [radioSet, args.deveui_length, args.appeui_length, args.appkey_length]

end ControlBoard
