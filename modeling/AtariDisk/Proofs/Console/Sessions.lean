import AtariDisk.Console.Loop
import AtariDisk.Proofs.Console.Commands
import AtariDisk.Proofs.Console.Sanity

/-!
# Sessions outlive their commands

The console goes on with the session that an attempt leads to, or with the one it had, and it never
traps (`execute_follows`). So all sessions that are ever reached are sane, and none gets lost or is
changed by half.
-/

namespace AtariDisk.Console

open Image Problem

/-- The console goes on, with the session that an attempt leads to. -/
structure Follows (session : Option Session) (result : Except Problem (Option Session))
    (reply : Reply) : Prop where
  proceeds : reply.continuation = .proceed
  session_eq : reply.session = goOn session result

/-! ### One command -/

section Follows

variable {session : Option Session} {α : Type}

theorem follows_say (fresh : Option Session) (lines : List String) :
    Follows session (.ok fresh) (.say fresh lines) :=
  ⟨rfl, rfl⟩

theorem follows_problem (problem : Problem) (lines : List String) :
    Follows session (.error problem) (.say session lines) :=
  ⟨rfl, rfl⟩

theorem follows_ofOutcome {outcome : Outcome α} (hsettles : outcome.Settles)
    {next : α → Except Problem (Option Session)} {reply : α → Reply}
    (hnext : ∀ a, outcome = .ok a → Follows session (next a) (reply a)) :
    Follows session (ofDisk outcome >>= next) (.ofOutcome session outcome reply) := by
  cases outcome with
  | ok a => exact hnext a rfl
  | error e =>
    obtain ⟨cause, rfl⟩ := hsettles.exists_refused rfl
    exact follows_problem _ _

theorem follows_onSession {next : Session → Except Problem (Option Session)}
    {reply : Session → Reply}
    (hnext : ∀ s, session = some s → Follows session (next s) (reply s)) :
    Follows session (demand .noImage session >>= next) (.onSession session reply) := by
  cases session with
  | none => exact follows_problem _ _
  | some s => exact hnext s rfl

theorem follows_onVolume {next : Volume → Except Problem (Option Session)} {reply : Volume → Reply}
    (hnext : ∀ v, session.bind Session.volume? = some v → Follows session (next v) (reply v)) :
    Follows session (demand .noVolume (session.bind Session.volume?) >>= next)
      (.onVolume session reply) := by
  unfold Reply.onVolume
  cases hvolume : session.bind Session.volume? with
  | none => exact follows_problem _ _
  | some v => exact hnext v hvolume

/-- A change that fails without a trace does not show in the session. -/
theorem follows_changeVolume {v : Volume} (hvolume : session.bind Session.volume? = some v)
    {change : Call Volume α}
    (hfails : ∀ e u, change v = .error e u → (∃ cause, e = .refused cause) ∧ u = v)
    (line : String) :
    Follows session (ofChange (change v) >>= fun u => return some (.mounted u))
      (changeVolume v change line) := by
  have hsession := eq_mounted hvolume
  subst hsession
  unfold changeVolume
  cases hchange : change v with
  | ok a u => exact follows_say _ _
  | error e u =>
    obtain ⟨⟨cause, rfl⟩, rfl⟩ := hfails e u hchange
    exact follows_problem _ _

end Follows

theorem follows_enter {image : Image} (hproper : image.Proper) (session : Option Session)
    (lines : List String) :
    Follows session (.ok (some (.around image))) (.enter session lines image) := by
  obtain ⟨line, hline⟩ := ofImage_eq hproper
  unfold Reply.enter
  rw [hline]
  exact ⟨rfl, rfl⟩

section Command

variable {session : Option Session} (hsane : ∀ s, session = some s → s.Sane) {host : HostAnswer}

theorem openImage_ok (session : Option Session) (path : String) (data : Buffer) :
    openImage session path (.ok data) =
      .ofOutcome session (Image.ofBuffer data) fun image =>
        .enter session [s!"Opened: {path}"] { image with fileName := Text.fileNameOf path } := by
  unfold openImage Image.ofFile
  simp only [Outcome.pure_eq_ok, Outcome.ok_bind]
  cases Image.ofBuffer data with
  | ok image => rfl
  | error e =>
    cases e with
    | refused cause => rfl
    | trapped cause => rfl

theorem follows_openImage (hhost : host.InMemory) (path : String) :
    Follows session (attempt session host (.openImage path))
      (openImage session path host.read) := by
  rw [attempt]
  cases hanswer : host.read with
  | error cause => exact follows_problem _ _
  | ok data =>
    have hsettles : (Image.ofBuffer data).Settles := by
      intro cause htrap
      obtain ⟨_, hrefused, _⟩ := refusesOnly_ofBuffer data _ htrap
      cases hrefused
    rw [openImage_ok]
    refine follows_ofOutcome hsettles fun image hread => ?_
    exact follows_enter (proper_of_read (hhost data hanswer) hread _).1 session _

include hsane

theorem loaded_of_volume {v : Volume} (hvolume : session.bind Session.volume? = some v) :
    v.Loaded :=
  (hsane _ (eq_mounted hvolume)).2

theorem follows_exportFile (name output : String) :
    Follows session (attempt session host (.exportFile name output))
      ((exportFile session name output).answered host) := by
  rw [attempt]
  unfold exportFile
  cases hvolume : session.bind Session.volume? with
  | none => exact follows_problem _ _
  | some v =>
    have hsettles := (loaded_of_volume hsane hvolume).settles_contentsOf name
    rw [demand_some_bind]
    simp only
    cases hcontents : v.contentsOf name with
    | error e =>
      obtain ⟨cause, rfl⟩ := hsettles.exists_refused hcontents
      exact follows_problem _ _
    | ok contents =>
      cases hwrite : host.write with
      | error cause =>
        simp only [HostCall.answered, hwrite]
        exact follows_problem _ _
      | ok done =>
        simp only [HostCall.answered, hwrite]
        exact follows_say _ _

theorem follows_importFile (path name : String) (kind : FileKind) :
    Follows session (attempt session host (.importFile path name kind))
      (importFile session path name kind host.read) := by
  rw [attempt]
  unfold importFile
  cases host.read with
  | error cause => exact follows_problem _ _
  | ok data =>
    refine follows_onVolume fun v hv => ?_
    have hloaded := loaded_of_volume hsane hv
    refine follows_changeVolume hv (fun e u herror => ?_) _
    exact ⟨hloaded.writeFile_refused herror, hloaded.ready.writeFile_error herror⟩

omit hsane in
theorem follows_saveImage (path : Option String) :
    Follows session (attempt session host (.save path))
      ((saveImage session path).answered host) := by
  rw [attempt]
  unfold saveImage
  cases session with
  | none => exact follows_problem _ _
  | some s =>
    rw [demand_some_bind]
    simp only
    cases hpath : path <|> s.image.fileName with
    | none => exact follows_problem _ _
    | some path =>
      cases hwrite : host.write with
      | error cause =>
        simp only [HostCall.answered, hwrite]
        exact follows_problem _ _
      | ok done =>
        simp only [HostCall.answered, hwrite]
        exact follows_say _ _

/-- **A command does all it is to do, or nothing.** -/
theorem execute_follows (hhost : host.InMemory) {command : Command} (hquit : command ≠ .quit)
    (hplan : ∀ plan, command = .create plan → plan.Common) :
    Follows session (attempt session host command) ((execute session command).answered host) := by
  cases command with
  | help => exact follows_say session helpLines
  | quit => exact absurd rfl hquit
  | openImage path => exact follows_openImage hhost path
  | create plan =>
    obtain ⟨image, himage⟩ := (hplan plan rfl).exists_image
    obtain ⟨hproper, hidle⟩ := proper_of_plan himage
    refine follows_ofOutcome ?_ fun v _ => follows_say _ _
    rw [himage, Outcome.ok_bind]
    exact settles_format hproper hidle
  | format =>
    refine follows_onSession fun s hs => ?_
    have hformat := settles_format (hsane s hs).proper (hsane s hs).idle
    exact follows_ofOutcome hformat fun v _ => follows_say _ _
  | info =>
    refine follows_onSession fun s hs => ?_
    have hinfo := settles_infoLines (hsane s hs)
    exact follows_ofOutcome hinfo fun lines _ => follows_say session lines
  | list =>
    refine follows_onVolume fun v hv => ?_
    have hloaded := loaded_of_volume hsane hv
    exact follows_ofOutcome (settles_listLines hloaded) fun lines _ => follows_say session lines
  | read name =>
    refine follows_onVolume fun v hv => ?_
    have hloaded := loaded_of_volume hsane hv
    exact follows_ofOutcome (hloaded.settles_contentsOf name) fun _ _ => follows_say session _
  | exportFile name output => exact follows_exportFile hsane name output
  | importFile path name kind => exact follows_importFile hsane path name kind
  | delete name =>
    refine follows_onVolume fun v hv => ?_
    have hloaded := loaded_of_volume hsane hv
    refine follows_changeVolume hv (fun e u herror => ?_) _
    exact ⟨hloaded.deleteFile_refused herror, hloaded.ready.deleteFile_error herror⟩
  | map =>
    refine follows_onSession fun s hs => ?_
    exact follows_ofOutcome (settles_mapText (hsane s hs).proper) fun text _ => ⟨rfl, rfl⟩
  | boot =>
    refine follows_onSession fun s hs => ?_
    have hboot := settles_bootLines (hsane s hs).proper
    exact follows_ofOutcome hboot fun lines _ => follows_say session lines
  | readSector sector =>
    refine follows_onSession fun s hs => ?_
    cases sector with
    | none => exact follows_problem _ _
    | some n =>
      have hread := (hsane s hs).proper.settles_readSector n
      exact follows_ofOutcome hread fun _ _ => follows_say session _
  | convert container =>
    refine follows_onSession fun s hs => ?_
    have hproper := (hsane s hs).proper
    rw [hproper.convert_eq container]
    exact follows_enter (hproper.inContainer container) session _
  | save path => exact follows_saveImage path
  | rejected line => exact follows_problem _ _

end Command

/-! ### Lines -/

/-- The words in a line. -/
def wordsIn (text : String) : List String :=
  words (String.ofList (Text.trim text.toList))

/-- The word that a line starts with, in small letters. -/
def verbOf (text : String) : Option String :=
  (wordsIn text).head?.map Text.lower

/-- The command in a line, unless the line is blank. -/
def commandIn (text : String) : Option Command :=
  match wordsIn text with
  | [] => none
  | word :: arguments => some (.ofWords word arguments)

/-- The session after a line, if everything that the line asks for succeeds. -/
def attemptLine (session : Option Session) (host : HostAnswer) (text : String) :
    Except Problem (Option Session) :=
  match commandIn text with
  | none => return session
  | some command => attempt session host command

theorem answer_eq (session : Option Session) (text : String) :
    answer session text = match commandIn text with
      | none => .done (.say session [])
      | some command => execute session command := by
  unfold answer commandIn wordsIn
  cases words (String.ofList (Text.trim text.toList)) with
  | nil => rfl
  | cons word arguments => rfl

theorem calledBy_of_commandIn {text : String} {command : Command}
    (hcommand : commandIn text = some command) :
    ∃ verb, verbOf text = some verb ∧ command.CalledBy verb := by
  unfold commandIn at hcommand
  unfold verbOf
  cases hwords : wordsIn text with
  | nil =>
    rw [hwords] at hcommand
    cases hcommand
  | cons word arguments =>
    rw [hwords] at hcommand
    cases hcommand
    exact ⟨Text.lower word, rfl, Command.calledBy_ofWords word arguments⟩

section Line

variable {session : Option Session} {host : HostAnswer} {text : String}

theorem answer_follows (hsane : ∀ s, session = some s → s.Sane) (hhost : host.InMemory)
    (hstays : commandIn text ≠ some .quit) :
    Follows session (attemptLine session host text) ((answer session text).answered host) := by
  rw [answer_eq, attemptLine]
  cases hcommand : commandIn text with
  | none => exact follows_say session []
  | some command =>
    obtain ⟨verb, _, hcalled⟩ := calledBy_of_commandIn hcommand
    apply execute_follows hsane hhost
    · rintro rfl
      exact hstays hcommand
    · rintro plan rfl
      exact hcalled.2

theorem attemptLine_succeeds (hsane : ∀ s, session = some s → s.Sane) (hhost : host.InMemory) :
    Yields (attemptLine session host text) (Succeeds session) := by
  unfold attemptLine
  cases commandIn text with
  | none => exact yields_pure ⟨hsane, id⟩
  | some command => exact attempt_succeeds hsane hhost command

/-- The sessions with which the console can wait for a line: it starts without one, and goes on with
what the lines so far have left. -/
inductive Reached : Option Session → Prop
  | start : Reached none
  | line {session : Option Session} {text : String} {host : HostAnswer} {reply : Reply} :
    Reached session → host.InMemory → (answer session text).answered host = reply →
      reply.continuation = .proceed → Reached reply.session

theorem Reached.sane (hreached : Reached session) : ∀ s, session = some s → s.Sane := by
  induction hreached with
  | start =>
    intro s hs
    cases hs
  | @line session text host reply _ hhost hreply hproceed ih =>
    subst hreply
    have hstays : commandIn text ≠ some .quit := by
      intro hquit
      rw [answer_eq, hquit] at hproceed
      cases hproceed
    rw [(answer_follows ih hhost hstays).session_eq]
    exact (goOn_succeeds ih (attemptLine_succeeds ih hhost)).sane

/-! ### Words that leave the session alone -/

theorem goOn_asking {command : Command} (hasks : command.asks = true) :
    goOn session (attempt session host command) = session := by
  cases hresult : attempt session host command with
  | ok fresh => exact attempt_asking hasks fresh hresult
  | error problem => rfl

theorem goOn_save (path : Option String) :
    goOn session (attempt session host (.save path)) = session ∨
      ∃ s, session = some s ∧ goOn session (attempt session host (.save path)) =
        some (s.withImage { s.image with changed := false }) := by
  have hsaved : Yields (attempt session host (.save path)) fun fresh =>
      ∃ s, session = some s ∧ fresh = some (s.withImage { s.image with changed := false }) := by
    refine yields_bind fun s hs => yields_bind fun _ _ => yields_bind fun _ _ => yields_pure ?_
    exact ⟨s, demand_eq_ok_iff.1 hs, rfl⟩
  cases hresult : attempt session host (.save path) with
  | error problem => exact .inl rfl
  | ok fresh => exact .inr (hsaved fresh hresult)

/-- **The console never loses or half-changes a session.** A session that was reached is followed by
another one or by itself, whatever the line says and whatever the host answers. Where anything
fails that the line asks for, it is followed by itself, and so it is after each command that only
asks. Saving changes at most the mark that there is something to be saved. -/
theorem session_survives (hreached : Reached session) (hhost : host.InMemory)
    (hstays : verbOf text ≠ some "quit" ∧ verbOf text ≠ some "exit") {reply : Reply}
    (hreply : (answer session text).answered host = reply) :
    reply.continuation = .proceed ∧
      (session.isSome = true → reply.session.isSome = true) ∧
      (∀ problem, attemptLine session host text = .error problem → reply.session = session) ∧
      (∀ fresh, attemptLine session host text = .ok fresh → reply.session = fresh) ∧
      (∀ verb ∈ Command.askingVerbs, verbOf text = some verb → reply.session = session) ∧
      (verbOf text = some "save" → reply.session = session ∨ ∃ s, session = some s ∧
        reply.session = some (s.withImage { s.image with changed := false })) := by
  have hsane := hreached.sane
  have hcommand : commandIn text ≠ some .quit := by
    intro hquit
    obtain ⟨verb, hverb, rfl | rfl⟩ := calledBy_of_commandIn hquit
    · exact hstays.1 hverb
    · exact hstays.2 hverb
  obtain ⟨hproceeds, hsession⟩ := answer_follows hsane hhost hcommand
  rw [hreply] at hproceeds hsession
  -- A line without words asks for nothing.
  have hcases : (commandIn text = none ∧ reply.session = session) ∨
      ∃ command, commandIn text = some command ∧
        reply.session = goOn session (attempt session host command) := by
    unfold attemptLine at hsession
    cases hline : commandIn text with
    | none =>
      rw [hline] at hsession
      exact .inl ⟨rfl, hsession⟩
    | some command =>
      rw [hline] at hsession
      exact .inr ⟨command, rfl, hsession⟩
  refine ⟨hproceeds, ?_, ?_, ?_, ?_, ?_⟩
  · rw [hsession]
    exact (goOn_succeeds hsane (attemptLine_succeeds hsane hhost)).present
  · intro problem hproblem
    rw [hsession, hproblem]
    rfl
  · intro fresh hfresh
    rw [hsession, hfresh]
    rfl
  · intro verb hasking hverb
    obtain ⟨_, hkept⟩ | ⟨command, hcommand, hsession⟩ := hcases
    · exact hkept
    · obtain ⟨called, hcalled, hcommand⟩ := calledBy_of_commandIn hcommand
      rw [hverb, Option.some.injEq] at hcalled
      subst hcalled
      rw [hsession, goOn_asking (Command.asks_of_calledBy hcommand hasking)]
  · intro hverb
    obtain ⟨_, hkept⟩ | ⟨command, hcommand, hsession⟩ := hcases
    · exact .inl hkept
    · obtain ⟨called, hcalled, hcommand⟩ := calledBy_of_commandIn hcommand
      rw [hverb, Option.some.injEq] at hcalled
      subst hcalled
      rw [hsession]
      obtain hasks | ⟨path, rfl⟩ := Command.save_of_calledBy hcommand
      · exact .inl (goOn_asking hasks)
      · exact goOn_save path

end Line

/-- Importing a file that the host does not have changes nothing on a disk that was just made. -/
theorem session_survives_missing_file :
    ∃ s reply, Reached (some s) ∧
      (answer (some s) "import x").answered ⟨.error .missing, .ok ()⟩ = reply ∧
      reply.continuation = .proceed ∧ reply.session = some s := by
  obtain ⟨v, hformat, _⟩ := Volume.format_ok Image.roomy_freshDisk
    (proper_of_plan Image.plan_freshDisk).2
  have hhost : HostAnswer.InMemory ⟨.error .missing, .ok ()⟩ := by
    intro data hdata
    cases hdata
  have hcreate : commandIn "create" = some (.create {}) := by decide +kernel
  have himport : commandIn "import x" = some (.importFile "x" "X" .normal) := by decide +kernel
  have hreached : Reached (some (.mounted v)) := by
    have hfollows := answer_follows Reached.start.sane hhost
      (show commandIn "create" ≠ some .quit by rw [hcreate]; simp)
    have hfresh := Reached.line .start hhost rfl hfollows.proceeds
    rw [hfollows.session_eq, attemptLine, hcreate] at hfresh
    simp only [attempt] at hfresh
    rw [Image.plan_freshDisk, Outcome.ok_bind, hformat] at hfresh
    exact hfresh
  have hverb : verbOf "import x" = some "import" := by decide +kernel
  obtain ⟨hproceeds, _, hkept, _⟩ := session_survives hreached hhost
    (show verbOf "import x" ≠ some "quit" ∧ verbOf "import x" ≠ some "exit" by
      rw [hverb]; simp) rfl
  refine ⟨.mounted v, _, hreached, rfl, hproceeds, hkept (.host .missing) ?_⟩
  rw [attemptLine, himport]
  rfl

end AtariDisk.Console
