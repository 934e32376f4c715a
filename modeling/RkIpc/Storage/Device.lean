
/-!
# The storage device of a handle

What a handle knows of its device, and how `rkipc_storage_auto_delete_init`,
`rkipc_storage_dev_add` and `rkipc_storage_dev_remove` change it. The two lookups in
`/proc/mounts` are given by their answers; sizes, the file system's type and its attributes are
left out, since nothing here reads them.

## Main definitions

* `MountStatus`, `DevAttr`, `DevSta`: `rkipc_mount_status`, `rkipc_str_dev_attr` and
  `rkipc_str_dev_sta`
* `devAdd`, `devRemove`: the device part of the two messages
-/

namespace RkIpc.Storage

/-- `rkipc_mount_status`. -/
inductive MountStatus
  | unmounted
  | notFormatted
  | formatErr
  | scanning
  | mounted
deriving DecidableEq, Repr

/-- The paths of `rkipc_str_dev_attr`; an empty one is not set. -/
structure DevAttr where
  devPath : String
  mountPath : String
deriving DecidableEq, Repr

/-- The device in `rkipc_str_dev_sta`. -/
structure DevSta where
  devPath : String
  mountStatus : MountStatus
deriving DecidableEq, Repr

/-- `/proc/mounts`: the answers of `rkipc_storage_get_mount_path` for a device, and of
`rkipc_storage_get_mount_dev` for a path. -/
structure Mounts where
  mountPath : String → Option String
  mountDev : String → Option String

/-- `rkipc_storage_auto_delete_init` before it creates the scan thread, and whether it does. -/
def autoDeleteInit (attr : DevAttr) (sta : DevSta) (mounts : Mounts) : DevSta × Bool :=
  match mounts.mountDev attr.mountPath with
  | some dev => (⟨dev, .scanning⟩, true)
  -- "GetMountDev failed"
  | none => ({ sta with mountStatus := .unmounted }, false)

/-- `rkipc_storage_dev_add` before it creates the scan thread, and whether it does: exactly then it
returns `0`. -/
def devAdd (attr : DevAttr) (sta : DevSta) (dev : String) (mounts : Mounts) : DevSta × Bool :=
  -- another device than the one set
  if attr.devPath ≠ "" ∧ attr.devPath ≠ dev then (sta, false)
  else
    let sta := if attr.devPath ≠ "" then { sta with devPath := attr.devPath } else sta
    match mounts.mountPath dev with
    | none =>
      (if attr.devPath ≠ "" then { sta with mountStatus := .notFormatted } else sta, false)
    | some mountPath =>
      -- mounted elsewhere than set
      if attr.mountPath ≠ "" ∧ attr.mountPath ≠ mountPath then (sta, false)
      else
        match mounts.mountDev mountPath with
        | none => (sta, false)
        | some devPath => (⟨devPath, .scanning⟩, true)

/-- `rkipc_storage_dev_remove` before it joins the scan thread, and whether it does: not for another
device. It returns `0` either way. -/
def devRemove (sta : DevSta) (dev : String) : DevSta × Bool :=
  if sta.devPath = dev then ({ sta with mountStatus := .unmounted }, true) else (sta, false)

/-- A card and its partition, mounted. -/
def cardAttr : DevAttr := ⟨"/dev/mmcblk1p1", "/mnt/sdcard"⟩

/-- `/proc/mounts` with the card. -/
def cardMounted : Mounts where
  mountPath := fun _ => some "/mnt/sdcard"
  mountDev := fun _ => some "/dev/mmcblk1p1"

end RkIpc.Storage
