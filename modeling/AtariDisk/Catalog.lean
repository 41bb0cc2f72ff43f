import AtariDisk.Volume.Basic

/-!
# Known filesystems

The filesystems that are looked for on an image, in this order.
-/

namespace AtariDisk

structure Filesystem where
  name : String
  /-- A quick look whether an image carries the filesystem. -/
  probe : Image → Outcome Bool
  mount : Image → Outcome Volume

namespace Catalog

def filesystems : List Filesystem :=
  [⟨Volume.filesystemName, Volume.probe, Volume.mount⟩]

/-- The first of `candidates` that is on the image. -/
def detectIn (image : Image) : List Filesystem → Outcome (Option Filesystem)
  | [] => .ok none
  | fs :: rest => do
    if ← fs.probe image then return some fs else detectIn image rest

/-- The first known filesystem that is on the image. -/
def detect (image : Image) : Outcome (Option Filesystem) :=
  detectIn image filesystems

/-- Mounts whichever known filesystem is on the image, or hands the image back. -/
def mount (image : Image) : Except (Failure × Image) Volume :=
  match detect image with
  | .error e => .error (e, image)
  | .ok none => .error (.refused .filesystemUnknown, image)
  | .ok (some fs) =>
    match fs.mount image with
    | .ok v => .ok v
    | .error e => .error (e, image)

end Catalog

end AtariDisk
