import AtariDisk.Proofs.Image.Origin
import AtariDisk.Proofs.Image.Writes

/-!
# The life of a transaction

The image that a transaction hands out says to each write what it would have said without the
transaction. Whichever way the transaction ends, the image is idle afterwards. It has all the writes
that were taken if the transaction was committed, and is as it was in the beginning otherwise.
-/

namespace AtariDisk

namespace Image

/-- The trap that a write springs, if it does. -/
def trapOf (image : Image) (write : SectorWrite) : Option Trap :=
  match image.answer write with
  | .ok _ => none
  | .error (.refused _) => none
  | .error (.trapped cause) => some cause

/-- The first trap that is sprung by some writes. -/
def trapIn (image : Image) (writes : List SectorWrite) : Option Trap :=
  writes.findSome? image.trapOf

/-- Those among some writes that succeed, up to one that traps. -/
def taken (image : Image) (writes : List SectorWrite) : List SectorWrite :=
  (writes.takeWhile fun write => (image.trapOf write).isNone).filter image.accepts

section Answer

variable {image : Image} {write : SectorWrite} (rest : List SectorWrite)

theorem taken_of_ok (hok : image.answer write = .ok ()) :
    image.taken (write :: rest) = write :: image.taken rest := by
  simp [taken, trapOf, accepts, hok]

theorem taken_of_refused {cause : DiskError} (hrefused : image.answer write = refuse cause) :
    image.taken (write :: rest) = image.taken rest := by
  rw [refuse] at hrefused
  simp [taken, trapOf, accepts, hrefused]

theorem taken_of_trapped {cause : Trap} (htrapped : image.answer write = trap cause) :
    image.taken (write :: rest) = [] := by
  rw [trap] at htrapped
  simp [taken, trapOf, htrapped]

theorem trapIn_of_ok (hok : image.answer write = .ok ()) :
    image.trapIn (write :: rest) = image.trapIn rest := by
  simp [trapIn, trapOf, hok]

theorem trapIn_of_refused {cause : DiskError} (hrefused : image.answer write = refuse cause) :
    image.trapIn (write :: rest) = image.trapIn rest := by
  rw [refuse] at hrefused
  simp [trapIn, trapOf, hrefused]

theorem trapIn_of_trapped {cause : Trap} (htrapped : image.answer write = trap cause) :
    image.trapIn (write :: rest) = some cause := by
  rw [trap] at htrapped
  simp [trapIn, trapOf, htrapped]

end Answer

/-- What comes of some work after the writes: nothing, if one of them traps. -/
def verdict {α : Type} (image : Image) (writes : List SectorWrite) (result : Outcome α) :
    Outcome α :=
  match image.trapIn writes with
  | none => result
  | some cause => trap cause

end Image

namespace Transaction

/-- The ways to end a transaction. To `nest` is to start another one on the image handed out; any
other trap unwinds it. -/
inductive Ending where
  | commit
  | rollback
  | drop
  | nest
  | unwind (cause : Trap)
deriving DecidableEq, Repr

def Ending.trap : Ending → Option Trap
  | commit => none
  | rollback => none
  | drop => none
  | nest => some .nestedTransaction
  | unwind cause => some cause

/-- Ends the transaction: the trap that was sprung, and the image. -/
def finish (t : Transaction) : Ending → Option Trap × Image
  | .commit => (none, t.commit)
  | .rollback => (none, t.rollback)
  | .drop => (none, t.close)
  | .nest =>
    match t.work (run (pure ())) with
    | .ok _ t => (none, t.close)
    | .error (.refused _) t => (none, t.close)
    | .error (.trapped cause) t => (some cause, t.close)
  | .unwind cause => (some cause, t.close)

/-- What is to be told of a transaction that is over, `taken` being the writes that succeeded. -/
structure Course where
  taken : List SectorWrite
  trap : Option Trap
  image : Image

/-- Asks for one write after the other, whether the last one was refused or not, and ends the
transaction then. A trap ends it at once. -/
def conduct (t : Transaction) (ending : Ending) : List SectorWrite → Course
  | [] => ⟨[], (t.finish ending).1, (t.finish ending).2⟩
  | write :: rest =>
    match t.work write.edit with
    | .ok _ t => { t.conduct ending rest with taken := write :: (t.conduct ending rest).taken }
    | .error (.refused _) t => t.conduct ending rest
    | .error (.trapped cause) t => ⟨[], some cause, t.close⟩

/-- The edit, going on where it is refused. -/
def tolerate (edit : Edit Unit) : Edit Unit := fun image =>
  match edit image with
  | .ok _ image => .ok () image
  | .error (.refused _) image => .ok () image
  | .error (.trapped cause) image => .error (.trapped cause) image

/-- Writes, whether they are refused or not, and some work behind them. -/
def script {α : Type} (work : Edit α) : List SectorWrite → Edit α
  | [] => work
  | write :: rest => do
    tolerate write.edit
    script work rest

/-- No transaction starts on an image that is handed out. -/
theorem work_run {α : Type} (t : Transaction) (edit : Edit α) :
    t.work (run edit) = .error (.trapped .nestedTransaction)
      ⟨{ t.image with phase := .mutating }, t.snapshot⟩ := rfl

/-! ### Open transactions -/

/-- The transaction began with one image and has come to another, but for the phase. -/
structure Underway (begun now : Image) (t : Transaction) : Prop where
  snapshot : t.snapshot = some ⟨begun.data, begun.changed⟩
  phase : t.image.phase = .snapshotted ∨ t.image.phase = .mutating
  image : t.image = { now with phase := t.image.phase }
  alike : Image.Alike begun now

theorem underway_start {image : Image} (hidle : image.phase = .idle) :
    ∃ t, start image = .ok t ∧ Underway image image t :=
  ⟨_, if_pos hidle, ⟨rfl, .inl rfl, rfl, Image.Alike.refl image⟩⟩

section Underway

variable {begun now : Image} {t : Transaction} (hunderway : Underway begun now t)

include hunderway

theorem Underway.handed {next : Image} (halike : Image.Alike begun next) :
    Underway begun next ⟨{ next with phase := .mutating }, t.snapshot⟩ :=
  ⟨hunderway.snapshot, .inr rfl, rfl, halike⟩

/-- A write inside the transaction is answered as in the beginning, and done to what there is. -/
theorem Underway.work_eq (write : SectorWrite) :
    t.work write.edit = match begun.answer write with
      | .ok _ => .ok () ⟨{ write.edit.after now with phase := .mutating }, t.snapshot⟩
      | .error e => .error e ⟨{ now with phase := .mutating }, t.snapshot⟩ := by
  have hhanded : { t.image with phase := Phase.mutating } = { now with phase := .mutating } := by
    rw [hunderway.image]
  unfold work
  rw [hhanded, Image.edit_phase, Image.answer_of_alike hunderway.alike]
  cases begun.answer write with
  | ok _ => rfl
  | error e => rfl

theorem Underway.restore_eq : t.restore = ⟨{ begun with phase := .rolledBack }, none⟩ := by
  have hheader := hunderway.alike.header
  have hname := hunderway.alike.fileName
  unfold restore
  rw [hunderway.snapshot, hunderway.image]
  simp only [hheader, hname]

variable (hidle : begun.phase = .idle)

include hidle

theorem Underway.rollback_eq : t.rollback = begun := by
  unfold rollback close
  rw [hunderway.restore_eq, if_neg (by simp)]
  simp only [← hidle]

theorem Underway.close_eq : t.close = begun := by
  unfold close
  rw [if_pos hunderway.phase, hunderway.restore_eq]
  simp only [← hidle]

theorem Underway.commit_eq : t.commit = now := by
  have hphase : now.phase = .idle := hunderway.alike.phase.trans hidle
  unfold commit close
  rw [if_neg (by simp), hunderway.image]
  simp only [← hphase]

theorem Underway.finish_eq (ending : Ending) :
    t.finish ending = (ending.trap, if ending = .commit then now else begun) := by
  cases ending with
  | commit => rw [finish, hunderway.commit_eq hidle]; rfl
  | rollback => rw [finish, hunderway.rollback_eq hidle]; rfl
  | drop => rw [finish, hunderway.close_eq hidle]; rfl
  | unwind cause => rw [finish, hunderway.close_eq hidle]; rfl
  | nest =>
    have hhanded := hunderway.handed hunderway.alike
    rw [finish, work_run, hunderway.image]
    exact congrArg (Prod.mk _) (hhanded.close_eq hidle)

end Underway

theorem Underway.conduct_eq {begun now : Image} {t : Transaction}
    (hunderway : Underway begun now t) (hidle : begun.phase = .idle) (ending : Ending)
    (writes : List SectorWrite) :
    t.conduct ending writes =
      ⟨begun.taken writes, (begun.trapIn writes).or ending.trap,
        if begun.trapIn writes = none ∧ ending = .commit then now.afterAll (begun.taken writes)
        else begun⟩ := by
  induction writes generalizing now t with
  | nil =>
    rw [conduct, hunderway.finish_eq hidle]
    simp [Image.taken, Image.trapIn, Image.afterAll]
  | cons write rest ih =>
    -- A write that succeeds moves the transaction on; a refused one leaves it where it was.
    have hstay := hunderway.handed hunderway.alike
    have hnext := hunderway.handed (hunderway.alike.trans (Image.alike_after now write))
    rw [conduct, hunderway.work_eq]
    cases hanswer : begun.answer write with
    | ok _ =>
      simp only
      rw [ih hnext, Image.taken_of_ok rest hanswer, Image.trapIn_of_ok rest hanswer]
      rfl
    | error e =>
      cases e with
      | refused cause =>
        simp only
        rw [ih hstay, Image.taken_of_refused rest hanswer, Image.trapIn_of_refused rest hanswer]
      | trapped cause =>
        simp only
        rw [hstay.close_eq hidle, Image.taken_of_trapped rest hanswer,
          Image.trapIn_of_trapped rest hanswer]
        rfl

/-! ### Transactions around an edit -/

/-- The writes are done one after the other, up to the first trap. -/
theorem script_eq {α : Type} {begun now : Image} (halike : Image.Alike begun now) (phase : Phase)
    (work : Edit α) (writes : List SectorWrite) :
    script work writes { now with phase } = match begun.trapIn writes with
      | none => work { now.afterAll (begun.taken writes) with phase }
      | some cause => .error (.trapped cause) { now.afterAll (begun.taken writes) with phase } := by
  induction writes generalizing now with
  | nil => rfl
  | cons write rest ih =>
    have hanswered := Image.edit_phase now phase write
    rw [Image.answer_of_alike halike] at hanswered
    cases hanswer : begun.answer write with
    | ok _ =>
      have hstep : tolerate write.edit { now with phase } =
          .ok () { write.edit.after now with phase } := by
        rw [tolerate, hanswered, hanswer]
      rw [script, Call.bind_of_ok hstep, Image.trapIn_of_ok rest hanswer,
        Image.taken_of_ok rest hanswer]
      exact ih (halike.trans (Image.alike_after now write))
    | error e =>
      cases e with
      | refused cause =>
        have hstep : tolerate write.edit { now with phase } = .ok () { now with phase } := by
          rw [tolerate, hanswered, hanswer]
        rw [script, Call.bind_of_ok hstep, Image.trapIn_of_refused rest hanswer,
          Image.taken_of_refused rest hanswer]
        exact ih halike
      | trapped cause =>
        have hstep : tolerate write.edit { now with phase } =
            .error (.trapped cause) { now with phase } := by
          rw [tolerate, hanswered, hanswer]
        rw [script, Call.bind_of_error hstep, Image.trapIn_of_trapped rest hanswer,
          Image.taken_of_trapped rest hanswer]
        rfl

/-- Work behind some writes, which writes nothing itself, decides what becomes of them. -/
theorem run_script {α : Type} {image : Image} (hidle : image.phase = .idle)
    (writes : List SectorWrite) {work : Edit α} {result : Outcome α}
    (hwork : ∀ next : Image, next.phase = .mutating → work next = Call.ofOutcome result next) :
    run (script work writes) image = match image.verdict writes result with
      | .ok a => .ok a (image.afterAll (image.taken writes))
      | .error e => .error e image := by
  have halike := Image.alike_afterAll image (image.taken writes)
  have hscript := script_eq (Image.Alike.refl image) .mutating work writes
  generalize image.afterAll (image.taken writes) = next at halike hscript ⊢
  obtain ⟨t, hstart, hunderway⟩ := underway_start hidle
  have hnext := hunderway.handed halike
  have hdone : t.work (script work writes) =
      Call.ofOutcome (image.verdict writes result)
        ⟨{ next with phase := .mutating }, t.snapshot⟩ := by
    have hhanded : { t.image with phase := Phase.mutating } =
        { image with phase := .mutating } := by
      rw [hunderway.image]
    rw [Transaction.work, hhanded, hscript, Image.verdict]
    cases image.trapIn writes with
    | some cause => rfl
    | none =>
      simp only
      rw [hwork _ rfl]
      cases result with
      | ok a => rfl
      | error e => rfl
  rw [run, hstart]
  simp only
  rw [hdone]
  cases image.verdict writes result with
  | ok a => exact congrArg (EStateM.Result.ok a) (hnext.commit_eq hidle)
  | error e =>
    cases e with
    | refused cause => exact congrArg (EStateM.Result.error _) (hnext.rollback_eq hidle)
    | trapped cause => exact congrArg (EStateM.Result.error _) (hnext.close_eq hidle)

/-- **The life of a transaction.** A transaction can be started on every idle image. Whatever is
written to the image inside of it and however it ends, the image is idle afterwards: with the writes
that succeeded, in their order, if it is committed or the work inside succeeds, and exactly as in
the beginning in all other cases. To start another one inside of it traps and changes nothing. -/
theorem lifecycle {image : Image} (hidle : image.phase = .idle) (writes : List SectorWrite) :
    (∃ t, start image = .ok t ∧ ∀ ending,
      (t.conduct ending writes).image.phase = .idle ∧
      (t.conduct ending writes).taken = image.taken writes ∧
      (t.conduct ending writes).trap = (image.trapIn writes).or ending.trap ∧
      (t.conduct ending writes).image =
        if (t.conduct ending writes).trap = none ∧ ending = .commit then
          image.afterAll (t.conduct ending writes).taken
        else image) ∧
    (∀ (α : Type) (result : Outcome α),
      run (script (Call.ofOutcome result) writes) image = match image.verdict writes result with
        | .ok a => .ok a (image.afterAll (image.taken writes))
        | .error e => .error e image) ∧
    (image.afterAll (image.taken writes)).phase = .idle ∧
    ∀ (α : Type) (inner : Edit α),
      (∀ t : Transaction, t.work (run inner) = .error (.trapped .nestedTransaction)
        ⟨{ t.image with phase := .mutating }, t.snapshot⟩) ∧
      run (script (run inner) writes) image =
        .error (.trapped ((image.trapIn writes).getD .nestedTransaction)) image := by
  have hphase : (image.afterAll (image.taken writes)).phase = .idle :=
    (Image.alike_afterAll image _).phase.trans hidle
  refine ⟨?_, ?_, hphase, ?_⟩
  · obtain ⟨t, hstart, hunderway⟩ := underway_start hidle
    refine ⟨t, hstart, fun ending => ?_⟩
    have hcommit : ((image.trapIn writes).or ending.trap = none ∧ ending = .commit) ↔
        (image.trapIn writes = none ∧ ending = .commit) := by
      apply and_congr_left
      rintro rfl
      rw [Ending.trap, Option.or_none]
    rw [hunderway.conduct_eq hidle]
    refine ⟨?_, rfl, rfl, ?_⟩
    · simp only
      split
      · exact hphase
      · exact hidle
    · simp only [hcommit]
  · intro α result
    exact run_script hidle writes fun _ _ => rfl
  · intro α inner
    refine ⟨fun t => work_run t inner, ?_⟩
    have hnested : ∀ next : Image, next.phase = .mutating →
        run inner next = Call.ofOutcome (trap .nestedTransaction) next := by
      intro next hmutating
      unfold run start
      rw [if_neg (by rw [hmutating]; decide)]
      rfl
    rw [run_script hidle writes hnested, Image.verdict]
    cases image.trapIn writes with
    | none => rfl
    | some cause => rfl

/-- A sector that is on the disk, and one behind its end. -/
def strayWrites : List SectorWrite :=
  [.one 4 (Bytes.resize 128 0xAA []), .one 800 (Bytes.resize 128 0xAA [])]

theorem lifecycle_strayWrites :
    ∃ t, start Image.zeroDisk = .ok t ∧
      (t.conduct .commit strayWrites).taken = [.one 4 (Bytes.resize 128 0xAA [])] ∧
      (t.conduct .commit strayWrites).image.sector 4 = Bytes.resize 128 0xAA [] ∧
      (t.conduct .nest strayWrites).trap = some .nestedTransaction ∧
      (t.conduct .nest strayWrites).image = Image.zeroDisk := by
  have hroomy := Image.roomy_zeroDisk
  have hfour := hroomy.linkable_of_le (show 1 ≤ 4 by decide) (by decide)
  have hwrite : (SectorWrite.one 4 (Bytes.resize 128 0xAA [])).edit Image.zeroDisk =
      .ok () (Image.zeroDisk.put 4 (Bytes.resize 128 0xAA [])) := hroomy.edit_one hfour rfl
  have hok : Image.zeroDisk.answer (.one 4 (Bytes.resize 128 0xAA [])) = .ok () := by
    rw [Image.answer, hwrite]
  have hrefused : Image.zeroDisk.answer (.one 800 (Bytes.resize 128 0xAA [])) =
      refuse (.sectorOutOfRange 800 1 720) := by
    rw [Image.answer_eq, Image.landing, Image.fill, hroomy.span_outside (by decide)]
    rfl
  have htaken : Image.zeroDisk.taken strayWrites = [.one 4 (Bytes.resize 128 0xAA [])] := by
    rw [strayWrites, Image.taken_of_ok _ hok, Image.taken_of_refused _ hrefused]
    rfl
  have htrap : Image.zeroDisk.trapIn strayWrites = none := by
    rw [strayWrites, Image.trapIn_of_ok _ hok, Image.trapIn_of_refused _ hrefused]
    rfl
  have hidle : Image.zeroDisk.phase = .idle := rfl
  obtain ⟨⟨t, hstart, hends⟩, _⟩ := lifecycle hidle strayWrites
  obtain ⟨_, hkept, hquiet, hcommitted⟩ := hends .commit
  obtain ⟨_, _, hnested, hrestored⟩ := hends .nest
  refine ⟨t, hstart, hkept.trans htaken, ?_, ?_, ?_⟩
  · rw [hcommitted, hquiet, htrap, if_pos ⟨rfl, rfl⟩, hkept, htaken, Image.afterAll_cons,
      Call.after_of_ok hwrite]
    exact hroomy.sector_put_self hfour.1 hfour.2.1 rfl
  · rw [hnested, htrap]
    rfl
  · rw [hrestored, if_neg]
    exact fun hcommit => Ending.noConfusion hcommit.2

end Transaction

end AtariDisk
