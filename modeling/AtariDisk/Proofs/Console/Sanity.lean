import AtariDisk.Proofs.Catalog
import AtariDisk.Proofs.Console.Attempt
import AtariDisk.Proofs.Console.Queries
import AtariDisk.Proofs.Volume.Conversion

/-!
# Sane sessions

The image of a sane session is what fitting its bytes comes to, no transaction is open on it, and a
volume is what reading its image comes to. What an attempt leads to from a sane session is a sane
session (`attempt_succeeds`).
-/

namespace AtariDisk.Console

open Image Problem

/-- The image is what fitting its bytes comes to, without an open transaction, and the volume is
what was read from it. -/
def Session.Sane : Session → Prop
  | .raw image => image.Proper ∧ image.phase = .idle
  | .mounted v => v.image.Proper ∧ v.Loaded

namespace Session

theorem Sane.proper {s : Session} (hsane : s.Sane) : s.image.Proper := by
  cases s with
  | raw image => exact hsane.1
  | mounted v => exact hsane.1

theorem Sane.idle {s : Session} (hsane : s.Sane) : s.image.phase = .idle := by
  cases s with
  | raw image => exact hsane.2
  | mounted v => exact hsane.2.idle

end Session

section Image

variable {image : Image} (hproper : image.Proper) (hidle : image.phase = .idle)

include hproper

theorem ofImage_eq : ∃ line, Session.ofImage image = .ok (.around image, line) := by
  have hcountable := hproper.sound.countable hproper.size_lt
  unfold Session.ofImage Session.around
  rw [Catalog.mount_eq hproper.sound hcountable]
  cases Volume.mount image with
  | ok v => exact ⟨_, rfl⟩
  | error e => exact ⟨_, rfl⟩

include hidle

theorem sane_around : (Session.around image).Sane := by
  unfold Session.around
  cases hmount : Volume.mount image with
  | error e => exact ⟨hproper, hidle⟩
  | ok v =>
    obtain ⟨_, himage, _⟩ := Volume.reads_of_mount hproper.sound hmount
    refine ⟨?_, Volume.loaded_of_mount hproper.sound hidle hmount⟩
    rw [himage]
    exact hproper

theorem settles_format : (Volume.format image).Settles := by
  have hcountable := hproper.sound.countable hproper.size_lt
  cases hcheck : Volume.checkExtent image with
  | error e =>
    obtain ⟨cause, rfl, _⟩ := Volume.refusesOnly_checkExtent hproper.sound hcountable e hcheck
    unfold Volume.format
    rw [hcheck]
    exact Outcome.settles_refuse cause
  | ok done =>
    obtain ⟨v, hformat, _⟩ :=
      Volume.format_ok ((Volume.checkExtent_eq_ok_iff hproper.sound).1 hcheck) hidle
    rw [hformat]
    exact Outcome.settles_ok v

theorem sane_of_format {v : Volume} (hformat : Volume.format image = .ok v) :
    (Session.mounted v).Sane := by
  have hroomy := Volume.roomy_of_format hproper.sound hformat
  obtain ⟨again, hagain, hloaded, hheader, _⟩ := Volume.format_ok hroomy hidle
  rw [hformat, Except.ok.injEq] at hagain
  subst hagain
  exact ⟨hproper.of_sound hloaded.roomy.toSound hheader, hloaded⟩

end Image

theorem proper_of_plan {plan : DiskPlan} {image : Image} (hplan : plan.image = .ok image) :
    image.Proper ∧ image.phase = .idle := by
  have hmade : image.Made := .inr ⟨plan, hplan⟩
  obtain ⟨hsound, hidle⟩ := hmade.sound
  refine ⟨hmade.proper ?_, hidle⟩
  obtain ⟨_, header, _, _, hsmall, rfl⟩ := plan_image_eq_ok_iff.1 hplan
  rw [← hsound.covered]
  exact hsmall

/-- The image in a file, under the name of the file. -/
theorem proper_of_read {data : Buffer} (hsize : data.size < Word.memoryBound) {image : Image}
    (hread : Image.ofBuffer data = .ok image) (name : Option String) :
    Proper { image with fileName := name } ∧ image.phase = .idle := by
  have hmade : image.Made := .inl ⟨data, hread⟩
  have hproper := hmade.proper (by rw [data_of_ofBuffer hread]; exact hsize)
  exact ⟨hproper.of_header rfl rfl, hmade.sound.2⟩

theorem sane_saved {s : Session} (hsane : s.Sane) : (s.withImage s.image.saved).Sane := by
  cases s with
  | raw image =>
    obtain ⟨hproper, hidle⟩ := hsane
    exact ⟨hproper.of_header rfl rfl, hidle⟩
  | mounted v =>
    obtain ⟨hproper, hloaded⟩ := hsane
    have hroomy : v.image.saved.Roomy := (hloaded.ready.undergo .saved).roomy
    have hsame : SameDisk v.image v.image.saved := ⟨rfl, fun _ => rfl⟩
    refine ⟨hproper.of_header rfl rfl, hroomy, hloaded.idle, ?_⟩
    change Volume.load v.image.saved = _
    rw [hsame.load_eq hloaded.roomy hroomy, hloaded.current]
    rfl

theorem settles_infoLines {s : Session} (hsane : s.Sane) : (infoLines s).Settles := by
  cases s with
  | raw image => exact Outcome.settles_ok _
  | mounted v => exact (settles_volumeLines hsane.2).bind fun _ _ => Outcome.settles_ok _

theorem eq_mounted {session : Option Session} {v : Volume}
    (hvolume : session.bind Session.volume? = some v) : session = some (.mounted v) := by
  obtain ⟨s, rfl, hs⟩ := Option.bind_eq_some_iff.1 hvolume
  cases s with
  | raw image => cases hs
  | mounted w =>
    cases hs
    rfl

/-! ### Attempts -/

/-- A session that comes after another one: it is sane, and it does not get lost. -/
structure Succeeds (session fresh : Option Session) : Prop where
  sane : ∀ s, fresh = some s → s.Sane
  present : session.isSome = true → fresh.isSome = true

theorem succeeds_some {session : Option Session} {s : Session} (hsane : s.Sane) :
    Succeeds session (some s) := by
  refine ⟨fun t ht => ?_, fun _ => rfl⟩
  rw [← Option.some.inj ht]
  exact hsane

theorem sane_of_update {α : Type} {v u : Volume} (hsane : (Session.mounted v).Sane)
    {edit : Edit α} (hkeeps : edit.Keeps) {a : α} (hupdate : Volume.update edit v = .ok a u) :
    (Session.mounted u).Sane := by
  obtain ⟨hproper, hloaded⟩ := hsane
  obtain ⟨mid, hedit, hu, himage⟩ :=
    Volume.update_eq_ok hkeeps hloaded.roomy hloaded.idle hupdate
  have hheader : u.image.header = v.image.header := by
    rw [himage]
    exact (hkeeps.of_ok hedit).header
  exact ⟨hproper.of_sound hu.roomy.toSound hheader, hu⟩

theorem sane_of_write {v u : Volume} (hsane : (Session.mounted v).Sane) {typed : String}
    {kind : FileKind} {contents : Bytes} {e : Entry}
    (hwrite : v.writeFile typed kind contents = .ok e u) : (Session.mounted u).Sane := by
  rw [hsane.2.ready.writeFile_eq] at hwrite
  exact sane_of_update hsane (Volume.keeps_storeFile _ _ _ _ _ _) hwrite

theorem sane_of_delete {v u : Volume} (hsane : (Session.mounted v).Sane) {typed : String}
    (hdelete : v.deleteFile typed = .ok () u) : (Session.mounted u).Sane := by
  unfold Volume.deleteFile at hdelete
  split at hdelete
  · cases hdelete
  · exact sane_of_update hsane (Volume.keeps_dropFile _ _ _ _) hdelete

section Run

variable {session : Option Session} (hsane : ∀ s, session = some s → s.Sane) {host : HostAnswer}
  (hhost : host.InMemory)

include hsane hhost

theorem attempt_succeeds (command : Command) :
    Yields (attempt session host command) (Succeeds session) := by
  have hmounted : ∀ {v}, demand .noVolume (session.bind Session.volume?) = .ok v →
      (Session.mounted v).Sane := fun hv => hsane _ (eq_mounted (demand_eq_ok_iff.1 hv))
  by_cases hasks : command.asks = true
  · intro fresh hfresh
    rw [attempt_asking hasks fresh hfresh]
    exact ⟨hsane, id⟩
  cases command
  case openImage path =>
    refine yields_bind fun data hdata => yields_bind fun image hread => ?_
    obtain ⟨hproper, hidle⟩ := proper_of_read (hhost data (ofHost_eq_ok_iff.1 hdata))
      (ofDisk_eq_ok_iff.1 hread) (Text.fileNameOf path)
    exact yields_pure (succeeds_some (sane_around hproper hidle))
  case create plan =>
    refine yields_bind fun v hv => yields_pure (succeeds_some ?_)
    obtain ⟨image, himage, hformat⟩ := Outcome.bind_eq_ok_iff.1 (ofDisk_eq_ok_iff.1 hv)
    obtain ⟨hproper, hidle⟩ := proper_of_plan himage
    exact sane_of_format hproper hidle hformat
  case format =>
    refine yields_bind fun s hs => yields_bind fun v hv => yields_pure (succeeds_some ?_)
    have hold := hsane s (demand_eq_ok_iff.1 hs)
    exact sane_of_format hold.proper hold.idle (ofDisk_eq_ok_iff.1 hv)
  case importFile path name kind =>
    refine yields_bind fun data _ => yields_bind fun v hv => yields_bind fun u hu => ?_
    obtain ⟨e, hwrite⟩ := ofChange_eq_ok hu
    exact yields_pure (succeeds_some (sane_of_write (hmounted hv) hwrite))
  case delete name =>
    refine yields_bind fun v hv => yields_bind fun u hu => ?_
    obtain ⟨_, hdelete⟩ := ofChange_eq_ok hu
    exact yields_pure (succeeds_some (sane_of_delete (hmounted hv) hdelete))
  case convert container =>
    refine yields_bind fun s hs => yields_bind fun image himage => ?_
    have hproper := (hsane s (demand_eq_ok_iff.1 hs)).proper
    have hconverted := ofDisk_eq_ok_iff.1 himage
    rw [hproper.convert_eq, Except.ok.injEq] at hconverted
    subst hconverted
    exact yields_pure (succeeds_some (sane_around (hproper.inContainer container) rfl))
  case save path =>
    refine yields_bind fun s hs => yields_bind fun _ _ => yields_bind fun _ _ => ?_
    exact yields_pure (succeeds_some (sane_saved (hsane s (demand_eq_ok_iff.1 hs))))
  all_goals exact absurd rfl hasks

omit hhost in
theorem goOn_succeeds {result : Except Problem (Option Session)}
    (hresult : Yields result (Succeeds session)) : Succeeds session (goOn session result) := by
  cases result with
  | ok fresh => exact hresult fresh rfl
  | error problem => exact ⟨hsane, id⟩

end Run

end AtariDisk.Console
