import InVehicle.KeyedLists

/-!
# Listing access points

`ConfigurationManager._get_wifi_devices_info`, which adds the scanned access points to the
configuration that already holds the Ethernet and CAN interfaces.
-/

set_option autoImplicit false

namespace InVehicle.WifiDevices
open InVehicle.KeyedLists

/-- An access point as `nmcli` lists it. -/
structure DeviceWifi where
  inUse : Bool
  ssid : String
  security : String
  deriving DecidableEq, Repr

structure WifiAccessPointConfigurationInfo where
  ssid : String
  security : String
  connected : Bool
  deriving DecidableEq, Repr

/-- The entries of a configuration: Ethernet and CAN interfaces of any kind, and access
points. -/
inductive ConfigurationInfo (E C : Type) where
  | ethernet (info : E)
  | can (info : C)
  | wifi (info : WifiAccessPointConfigurationInfo)
  deriving DecidableEq, Repr

variable {E C : Type}

def ConfigurationInfo.ssid : ConfigurationInfo E C → Option String
  | .wifi info => some info.ssid
  | _ => none

/-- `wifi_dev.connected = True if wifi.in_use else wifi_dev.connected` -/
def connect (wifi : DeviceWifi) : ConfigurationInfo E C → ConfigurationInfo E C
  | .wifi info => .wifi { info with connected := if wifi.inUse then true else info.connected }
  | info => info

def accessPoint (wifi : DeviceWifi) : ConfigurationInfo E C :=
  .wifi { ssid := wifi.ssid, security := wifi.security, connected := wifi.inUse }

/-- One turn of the loop: `next` finds the entry that is then changed in its place. -/
def visit (configurationsInfo : List (ConfigurationInfo E C)) (wifi : DeviceWifi) :
    List (ConfigurationInfo E C) :=
  if wifi.ssid ≠ "" then
    match configurationsInfo.findIdx? (fun info => info.ssid = some wifi.ssid) with
    | some n => configurationsInfo.modify n (connect wifi)
    | none => configurationsInfo ++ [accessPoint wifi]
  else configurationsInfo

/-- `none` where the scan raises: the exception is dropped. -/
def getWifiDevicesInfo (wifiList : Option (List DeviceWifi))
    (configurationsInfo : List (ConfigurationInfo E C)) : List (ConfigurationInfo E C) :=
  match wifiList with
  | none => configurationsInfo
  | some wifiList => wifiList.foldl visit configurationsInfo

/-! ## The loop as a table -/

def DeviceWifi.name (wifi : DeviceWifi) : Option String :=
  if wifi.ssid = "" then none else some wifi.ssid

theorem name_eq_some_iff (wifi : DeviceWifi) (ssid : String) :
    wifi.name = some ssid ↔ ssid ≠ "" ∧ wifi.ssid = ssid := by
  by_cases h : wifi.ssid = ""
  · simp only [DeviceWifi.name, if_pos h, reduceCtorEq, false_iff, not_and]
    rintro hssid rfl
    exact hssid h
  · simp only [DeviceWifi.name, if_neg h, Option.some.injEq]
    constructor
    · rintro rfl
      exact ⟨h, rfl⟩
    · exact And.right

def table : Table DeviceWifi String (ConfigurationInfo E C) where
  itemKey := DeviceWifi.name
  key := ConfigurationInfo.ssid
  create := accessPoint
  update := connect

theorem visit_eq : (visit : List (ConfigurationInfo E C) → _) = table.put := by
  ext infos wifi : 2
  by_cases h : wifi.ssid = ""
  · rw [visit, if_neg (not_not_intro h), Table.put_keyless (T := table) (if_pos h)]
  · rw [visit, if_pos h, Table.put_keyed (T := table) (if_neg h)]
    rfl

def firstSecurity (wifiList : List DeviceWifi) (name : Option String) : String :=
  ((wifiList.find? fun wifi => wifi.name = name).map DeviceWifi.security).getD ""

def anyInUse (wifiList : List DeviceWifi) (name : Option String) : Bool :=
  wifiList.any fun wifi => wifi.name = name && wifi.inUse

def entry (wifiList : List DeviceWifi) (ssid : String) : ConfigurationInfo E C :=
  .wifi
    { ssid := ssid
      security := firstSecurity wifiList (some ssid)
      connected := anyInUse wifiList (some ssid) }

theorem mem_keys_iff (wifiList : List DeviceWifi) (ssid : String) :
    ssid ∈ (table : Table _ _ (ConfigurationInfo E C)).keys wifiList ↔
      ∃ wifi ∈ wifiList, wifi.name = some ssid := by
  rw [Table.keys, List.mem_eraseDups, List.mem_filterMap]
  rfl

theorem entry_other (wifiList : List DeviceWifi) (wifi : DeviceWifi) (ssid : String)
    (h : wifi.name ≠ some ssid) :
    (entry (wifiList ++ [wifi]) ssid : ConfigurationInfo E C) = entry wifiList ssid := by
  simp [entry, firstSecurity, anyInUse, List.find?_append, h]

theorem entry_first (wifiList : List DeviceWifi) (wifi : DeviceWifi) (ssid : String)
    (h : wifi.name = some ssid) (hnew : ¬ ∃ wifi ∈ wifiList, wifi.name = some ssid) :
    (entry (wifiList ++ [wifi]) ssid : ConfigurationInfo E C) = accessPoint wifi := by
  have hssid : wifi.ssid = ssid := ((name_eq_some_iff wifi ssid).mp h).2
  have hfind : wifiList.find? (fun wifi => wifi.name = some ssid) = none := by
    rw [List.find?_eq_none]
    intro w hw
    simpa using fun hname => hnew ⟨w, hw, hname⟩
  have hany : anyInUse wifiList (some ssid) = false := by
    rw [anyInUse, List.any_eq_false]
    intro w hw
    simp [show w.name ≠ some ssid from fun hname => hnew ⟨w, hw, hname⟩]
  rw [anyInUse] at hany
  simp [entry, firstSecurity, anyInUse, accessPoint, List.find?_append, hfind, hany, h, hssid]

theorem entry_again (wifiList : List DeviceWifi) (wifi : DeviceWifi) (ssid : String)
    (h : wifi.name = some ssid) (hold : ∃ wifi ∈ wifiList, wifi.name = some ssid) :
    (entry (wifiList ++ [wifi]) ssid : ConfigurationInfo E C) =
      connect wifi (entry wifiList ssid) := by
  obtain ⟨w, hw, hname⟩ := hold
  have hfind : (wifiList.find? fun wifi => wifi.name = some ssid).isSome = true := by
    rw [List.find?_isSome]
    exact ⟨w, hw, by simpa using hname⟩
  obtain ⟨first, hfirst⟩ := Option.isSome_iff_exists.mp hfind
  cases hinUse : wifi.inUse <;>
    simp [entry, firstSecurity, anyInUse, connect, List.find?_append, hfirst, h, hinUse]

def summary : Summary (table : Table _ _ (ConfigurationInfo E C)) where
  entry := entry
  key_entry _ _ := rfl
  entry_other := entry_other
  entry_first wifiList wifi ssid h hnew :=
    entry_first wifiList wifi ssid h (mt (mem_keys_iff (E := E) (C := C) wifiList ssid).mpr hnew)
  entry_again wifiList wifi ssid h hold :=
    entry_again wifiList wifi ssid h ((mem_keys_iff (E := E) (C := C) wifiList ssid).mp hold)

/-! ## The list -/

/-- The names other than the empty one, in the order of first appearance. -/
def ssids (wifiList : List DeviceWifi) : List String :=
  ((wifiList.map DeviceWifi.ssid).filter (· ≠ "")).eraseDups

theorem keys_eq (wifiList : List DeviceWifi) :
    (table : Table _ _ (ConfigurationInfo E C)).keys wifiList = ssids wifiList := by
  rw [Table.keys, ssids]
  congr 1
  induction wifiList with
  | nil => rfl
  | cons wifi wifiList ih =>
    by_cases h : wifi.ssid = ""
    · have hname : (table (E := E) (C := C)).itemKey wifi = none := if_pos h
      rw [List.filterMap_cons_none hname, ih]
      simp [h]
    · have hname : (table (E := E) (C := C)).itemKey wifi = some wifi.ssid := if_neg h
      rw [List.filterMap_cons_some hname, ih]
      simp [h]

theorem ssids_nodup (wifiList : List DeviceWifi) : (ssids wifiList).Nodup := eraseDups_nodup _

theorem mem_ssids (wifiList : List DeviceWifi) (ssid : String) :
    ssid ∈ ssids wifiList ↔ ssid ≠ "" ∧ ∃ wifi ∈ wifiList, wifi.ssid = ssid := by
  rw [ssids, List.mem_eraseDups, List.mem_filter, List.mem_map, decide_eq_true_eq]
  exact and_comm

def listed (wifiList : List DeviceWifi) (ssid : String) : WifiAccessPointConfigurationInfo where
  ssid := ssid
  security := ((wifiList.find? fun wifi => wifi.ssid = ssid).map DeviceWifi.security).getD ""
  connected := wifiList.any fun wifi => wifi.ssid = ssid && wifi.inUse

theorem listed_security (wifiList : List DeviceWifi) {ssid : String}
    (h : ssid ∈ ssids wifiList) :
    ∃ earlier first later, wifiList = earlier ++ first :: later ∧ first.ssid = ssid ∧
      (∀ wifi ∈ earlier, wifi.ssid ≠ ssid) ∧ (listed wifiList ssid).security = first.security := by
  obtain ⟨-, wifi, hwifi, hssid⟩ := (mem_ssids wifiList ssid).mp h
  have hfind : (wifiList.find? fun wifi => wifi.ssid = ssid).isSome = true := by
    rw [List.find?_isSome]
    exact ⟨wifi, hwifi, by simpa using hssid⟩
  obtain ⟨first, hfirst⟩ := Option.isSome_iff_exists.mp hfind
  obtain ⟨hname, earlier, later, hlist, hearlier⟩ := List.find?_eq_some_iff_append.mp hfirst
  refine ⟨earlier, first, later, hlist, by simpa using hname, ?_, ?_⟩
  · intro w hw
    simpa using hearlier w hw
  · rw [listed, hfirst]
    rfl

theorem entry_eq (wifiList : List DeviceWifi) {ssid : String} (h : ssid ≠ "") :
    (entry wifiList ssid : ConfigurationInfo E C) = .wifi (listed wifiList ssid) := by
  simp [entry, listed, firstSecurity, anyInUse, name_eq_some_iff, h]

theorem access_points (configurationsInfo : List (ConfigurationInfo E C))
    (hinterfaces : ∀ info ∈ configurationsInfo, info.ssid = none) (wifiList : List DeviceWifi) :
    getWifiDevicesInfo (some wifiList) configurationsInfo =
      configurationsInfo ++ (ssids wifiList).map fun ssid => .wifi (listed wifiList ssid) := by
  rw [getWifiDevicesInfo, visit_eq, summary.foldl_put hinterfaces, Summary.table, keys_eq]
  congr 1
  refine List.map_congr_left fun ssid hssid => entry_eq wifiList ?_
  exact ((mem_ssids wifiList ssid).mp hssid).1

theorem access_points_scan :
    getWifiDevicesInfo
        (some [⟨false, "garage", "WPA2"⟩, ⟨false, "", "WPA1"⟩, ⟨false, "office", ""⟩,
          ⟨true, "garage", "WPA3"⟩])
        [.ethernet "eth0", .can 0] =
      [.ethernet "eth0", .can 0, .wifi ⟨"garage", "WPA2", true⟩, .wifi ⟨"office", "", false⟩] :=
  (access_points [.ethernet "eth0", .can 0] (by simp [ConfigurationInfo.ssid])
    [⟨false, "garage", "WPA2"⟩, ⟨false, "", "WPA1"⟩, ⟨false, "office", ""⟩,
      ⟨true, "garage", "WPA3"⟩]).trans (by decide +kernel)

end InVehicle.WifiDevices
