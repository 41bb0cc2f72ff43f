import AtariDisk.Catalog

/-!
# Sessions

The disk a user works with, as a volume if a known filesystem is on it.
-/

namespace AtariDisk.Console

inductive Session where
  | raw (image : Image)
  | mounted (volume : Volume)
deriving DecidableEq

namespace Session

def image : Session → Image
  | raw image => image
  | mounted volume => volume.image

def withImage (session : Session) (image : Image) : Session :=
  match session with
  | raw _ => raw image
  | mounted volume => mounted { volume with image }

def volume? : Session → Option Volume
  | raw _ => none
  | mounted volume => some volume

/-- The session of an image, and the line that announces it. -/
def ofImage (image : Image) : Except Trap (Session × String) :=
  match Catalog.mount image with
  | .ok volume => .ok (mounted volume, s!"Filesystem: {Volume.filesystemName}")
  | .error (.refused cause, image) =>
    .ok (raw image, s!"No filesystem mounted ({cause.message}); raw sector access only")
  | .error (.trapped cause, _) => .error cause

end Session

end AtariDisk.Console
