import AtariDisk.Image.Sectors

/-!
# Taking outcomes apart

An operation in several steps answers exactly if each step does. The lemmas here split a computation
at its first step, for plain outcomes and for calls on a state, so that later proofs never look into
the sequencing itself.
-/

namespace AtariDisk

namespace Outcome

variable {α β : Type}

@[simp]
theorem ok_bind (a : α) (f : α → Outcome β) : ((.ok a : Outcome α) >>= f) = f a := rfl

@[simp]
theorem error_bind (e : Failure) (f : α → Outcome β) :
    ((.error e : Outcome α) >>= f) = .error e := rfl

@[simp]
theorem refuse_bind (cause : DiskError) (f : α → Outcome β) :
    ((refuse cause : Outcome α) >>= f) = refuse cause := rfl

@[simp]
theorem pure_eq_ok (a : α) : (pure a : Outcome α) = .ok a := rfl

theorem bind_eq_ok_iff {x : Outcome α} {f : α → Outcome β} {b : β} :
    (x >>= f) = .ok b ↔ ∃ a, x = .ok a ∧ f a = .ok b := by
  cases x with
  | error e => simp
  | ok a => simp

@[simp]
theorem refuse_ne_ok (cause : DiskError) (a : α) : (refuse cause : Outcome α) ≠ .ok a := by
  simp [refuse]

/-- The computation answers or is refused; it does not trap. -/
def Settles (x : Outcome α) : Prop :=
  ∀ cause, x ≠ .error (.trapped cause)

theorem settles_ok (a : α) : Settles (.ok a : Outcome α) := by
  intro cause
  simp

theorem settles_refuse (cause : DiskError) : Settles (refuse cause : Outcome α) := by
  intro trapped
  simp [refuse]

theorem Settles.bind {x : Outcome α} {f : α → Outcome β} (hx : Settles x)
    (hf : ∀ a, x = .ok a → Settles (f a)) : Settles (x >>= f) := by
  intro cause
  cases x with
  | error e =>
    intro htrap
    simp only [error_bind, Except.error.injEq] at htrap
    exact hx cause (by rw [htrap])
  | ok a => exact hf a rfl cause

theorem Settles.map {x : Outcome α} (hx : Settles x) (f : α → β) : Settles (x.map f) := by
  intro cause
  cases x with
  | error e =>
    intro htrap
    exact hx cause (by rw [Except.error.inj htrap])
  | ok a => simp [Except.map]

theorem Settles.exists_refused {x : Outcome α} (hx : Settles x) {e : Failure}
    (herror : x = .error e) : ∃ cause, e = .refused cause := by
  cases e with
  | refused cause => exact ⟨cause, rfl⟩
  | trapped cause => exact absurd herror (hx cause)

/-- The computation answers or is refused for a cause of this kind. -/
def RefusesOnly (kind : ErrorKind) (x : Outcome α) : Prop :=
  ∀ e, x = .error e → ∃ cause, e = .refused cause ∧ cause.kind = kind

variable {kind : ErrorKind}

theorem refusesOnly_ok (a : α) : RefusesOnly kind (.ok a : Outcome α) := by
  intro e herror
  simp at herror

theorem refusesOnly_refuse {cause : DiskError} (hkind : cause.kind = kind) :
    RefusesOnly kind (refuse cause : Outcome α) := by
  intro e herror
  exact ⟨cause, (Except.error.inj herror).symm, hkind⟩

theorem RefusesOnly.settles {x : Outcome α} (hx : RefusesOnly kind x) : Settles x := by
  intro cause htrap
  obtain ⟨_, hrefused, _⟩ := hx _ htrap
  simp at hrefused

theorem RefusesOnly.bind {x : Outcome α} {f : α → Outcome β} (hx : RefusesOnly kind x)
    (hf : ∀ a, x = .ok a → RefusesOnly kind (f a)) : RefusesOnly kind (x >>= f) := by
  cases x with
  | error e =>
    intro failure herror
    rw [error_bind, Except.error.injEq] at herror
    exact hx failure (by rw [herror])
  | ok a => exact hf a rfl

end Outcome

namespace Call

variable {σ α β : Type}

theorem bind_apply (x : Call σ α) (f : α → Call σ β) (s : σ) :
    (x >>= f) s = match x s with
      | .ok a t => f a t
      | .error e t => .error e t := by
  change EStateM.bind x f s = _
  unfold EStateM.bind
  cases x s with
  | ok a t => rfl
  | error e t => rfl

theorem bind_eq_ok_iff {x : Call σ α} {f : α → Call σ β} {s t : σ} {b : β} :
    (x >>= f) s = .ok b t ↔ ∃ a u, x s = .ok a u ∧ f a u = .ok b t := by
  rw [bind_apply]
  cases x s with
  | ok a u =>
    simp only [EStateM.Result.ok.injEq]
    constructor
    · exact fun hf => ⟨a, u, ⟨rfl, rfl⟩, hf⟩
    · rintro ⟨_, _, ⟨rfl, rfl⟩, hf⟩
      exact hf
  | error e u => simp

theorem bind_of_ok {x : Call σ α} {s u : σ} {a : α} (hx : x s = .ok a u)
    (f : α → Call σ β) : (x >>= f) s = f a u := by
  rw [bind_apply, hx]

theorem bind_of_error {x : Call σ α} {s u : σ} {e : Failure} (hx : x s = .error e u)
    (f : α → Call σ β) : (x >>= f) s = .error e u := by
  rw [bind_apply, hx]

@[simp]
theorem get_bind (f : σ → Call σ β) (s : σ) :
    ((get : Call σ σ) >>= f) s = f s s := rfl

@[simp]
theorem pure_apply (a : α) (s : σ) : (pure a : Call σ α) s = .ok a s := rfl

@[simp]
theorem throw_apply (e : Failure) (s : σ) : (throw e : Call σ α) s = .error e s := rfl

@[simp]
theorem modify_apply (f : σ → σ) (s : σ) : (modify f : Call σ PUnit) s = .ok ⟨⟩ (f s) := rfl

@[simp]
theorem ofOutcome_ok (a : α) (s : σ) : ofOutcome (.ok a : Outcome α) s = .ok a s := rfl

@[simp]
theorem ofOutcome_error (e : Failure) (s : σ) :
    ofOutcome (.error e : Outcome α) s = .error e s := rfl

theorem ofOutcome_eq_ok_iff {x : Outcome α} {s t : σ} {a : α} :
    ofOutcome x s = .ok a t ↔ x = .ok a ∧ t = s := by
  cases x with
  | error e => simp
  | ok b => simp [eq_comm]

theorem ofOutcome_bind_eq_ok_iff {x : Outcome α} {f : α → Call σ β} {s t : σ} {b : β} :
    (ofOutcome x >>= f) s = .ok b t ↔ ∃ a, x = .ok a ∧ f a s = .ok b t := by
  rw [bind_eq_ok_iff]
  constructor
  · rintro ⟨a, u, hx, hf⟩
    obtain ⟨rfl, rfl⟩ := ofOutcome_eq_ok_iff.1 hx
    exact ⟨a, rfl, hf⟩
  · rintro ⟨a, rfl, hf⟩
    exact ⟨a, s, rfl, hf⟩

theorem onCopy_of_ok {call : Call σ α} {s t : σ} {a : α} (hok : call s = .ok a t) :
    onCopy s call = .ok (a, t) := by
  rw [onCopy, hok]

theorem onCopy_of_error {call : Call σ α} {s t : σ} {e : Failure} (herror : call s = .error e t) :
    onCopy s call = .error e := by
  rw [onCopy, herror]

theorem onCopy_eq_ok_iff {call : Call σ α} {s t : σ} {a : α} :
    onCopy s call = .ok (a, t) ↔ call s = .ok a t := by
  constructor
  · intro hcopy
    cases hcall : call s with
    | ok b u =>
      rw [onCopy_of_ok hcall, Except.ok.injEq, Prod.mk.injEq] at hcopy
      rw [hcopy.1, hcopy.2]
    | error e u =>
      rw [onCopy_of_error hcall] at hcopy
      exact absurd hcopy (by simp)
  · exact onCopy_of_ok

/-- The state that a call leaves behind, whether it answers or fails. -/
def after (call : Call σ α) (s : σ) : σ :=
  match call s with
  | .ok _ t => t
  | .error _ t => t

theorem after_of_ok {call : Call σ α} {s t : σ} {a : α} (hok : call s = .ok a t) :
    call.after s = t := by
  rw [after, hok]

theorem after_of_error {call : Call σ α} {s t : σ} {e : Failure} (herror : call s = .error e t) :
    call.after s = t := by
  rw [after, herror]

end Call

end AtariDisk
