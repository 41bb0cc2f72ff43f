import AtariDisk.Console.Command
import AtariDisk.Proofs.Image.Tiling

/-!
# What words come to

A command is called by one of a few words, or it was rejected. The disks that can be asked for with
`create` are all small enough to be made.
-/

namespace AtariDisk

/-- A plan for a disk of one of the three densities. -/
def DiskPlan.Common (plan : DiskPlan) : Prop :=
  ∃ density container, Console.Command.densityPlan? density { container } = some plan

/-- A plan can be carried out if the bytes of its sectors can be held in memory. -/
theorem DiskPlan.exists_image {plan : DiskPlan} {size : Nat} (hlength : plan.dataLength = .ok size)
    (hsector : plan.sectorSize = 128 ∨ plan.sectorSize = 256)
    (hsmall : size + 16 < Word.memoryBound) : ∃ image, plan.image = .ok image := by
  have hword : size < Word.bound := by
    have hmemory : Word.memoryBound < Word.bound := by decide
    omega
  obtain ⟨header, hsized, _⟩ := Header.exists_ofSize plan.container hword hsector
  have himage := (Header.fitted_of_ofSize hsized).2.1
  have hlead := header.length_le
  exact ⟨_, Image.plan_image_eq_ok_iff.2 ⟨size, header, hlength, hsized, by omega, rfl⟩⟩

theorem DiskPlan.Common.exists_image {plan : DiskPlan} (hcommon : plan.Common) :
    ∃ image, plan.image = .ok image := by
  obtain ⟨density, container, hplan⟩ := hcommon
  have hsingle : (singleDensity { container }).dataLength = .ok 92160 := by
    cases container with
    | atr => rfl
    | xfd => rfl
  have henhanced : (enhancedDensity { container }).dataLength = .ok 133120 := by
    cases container with
    | atr => rfl
    | xfd => rfl
  have hdouble : (doubleDensity { container }).dataLength = .ok 183936 := by
    cases container with
    | atr => rfl
    | xfd => rfl
  unfold Console.Command.densityPlan? at hplan
  split at hplan
  · cases hplan
    exact DiskPlan.exists_image hsingle (.inl rfl) (by decide)
  · split at hplan
    · cases hplan
      exact DiskPlan.exists_image henhanced (.inl rfl) (by decide)
    · split at hplan
      · cases hplan
        exact DiskPlan.exists_image hdouble (.inr rfl) (by decide)
      · cases hplan

namespace Console.Command

/-- What can be said of a command by the word that calls it. A rejected line may start with any
word. -/
def CalledBy (verb : String) : Command → Prop
  | help => verb = "help"
  | quit => verb = "quit" ∨ verb = "exit"
  | openImage _ => verb = "open"
  | create plan => verb = "create" ∧ plan.Common
  | format => verb = "format"
  | info => verb = "info"
  | list => verb = "dir" ∨ verb = "ls"
  | read _ => verb = "read"
  | exportFile _ _ => verb = "export"
  | importFile _ _ _ => verb = "import"
  | delete _ => verb = "delete" ∨ verb = "rm"
  | map => verb = "vtoc" ∨ verb = "map"
  | boot => verb = "boot"
  | readSector _ => verb = "read-sector"
  | convert _ => verb = "convert"
  | save _ => verb = "save"
  | rejected _ => True

theorem calledBy_createIn (container : Container) (density : Option String) :
    CalledBy "create" (createIn container density) := by
  unfold createIn
  simp only
  split
  · rename_i plan hplan
    exact ⟨rfl, _, container, hplan⟩
  · exact True.intro

theorem calledBy_ofCreateWords (arguments : List String) :
    CalledBy "create" (ofCreateWords arguments) := by
  unfold ofCreateWords
  split
  · split
    · exact calledBy_createIn _ _
    · exact True.intro
  · exact calledBy_createIn _ _

theorem calledBy_ofImportWords (arguments : List String) :
    CalledBy "import" (ofImportWords arguments) := by
  unfold ofImportWords
  split
  · exact True.intro
  · exact rfl

theorem calledBy_ofWords (word : String) (arguments : List String) :
    CalledBy (Text.lower word) (ofWords word arguments) := by
  unfold ofWords
  simp only
  split
  all_goals first
    | exact True.intro
    | rw [‹Text.lower word = _›]
      first
        | exact calledBy_ofCreateWords _
        | exact calledBy_ofImportWords _
        | exact rfl
        | exact .inl rfl
        | exact .inr rfl
    | split
      · assumption
      · exact True.intro

/-! ### Commands that only ask -/

/-- Whether the command leaves the session alone even if it succeeds. -/
def asks : Command → Bool
  | openImage _ | create _ | format | importFile _ _ _ | delete _ | convert _ | save _ => false
  | _ => true

/-- The words of commands that only ask. -/
def askingVerbs : List String :=
  ["info", "dir", "ls", "read", "export", "vtoc", "map", "boot", "read-sector", "help"]

theorem asks_of_calledBy {command : Command} {verb : String} (hcalled : command.CalledBy verb)
    (hverb : verb ∈ askingVerbs) : command.asks = true := by
  cases command
  case delete name =>
    rcases hcalled with rfl | rfl
    · simp [askingVerbs] at hverb
    · simp [askingVerbs] at hverb
  all_goals first
    | rfl
    | simp_all [CalledBy, askingVerbs]

theorem save_of_calledBy {command : Command} (hcalled : command.CalledBy "save") :
    command.asks = true ∨ ∃ path, command = save path := by
  cases command
  case save path => exact .inr ⟨path, rfl⟩
  all_goals first
    | exact .inl rfl
    | simp [CalledBy] at hcalled

end Console.Command

end AtariDisk
