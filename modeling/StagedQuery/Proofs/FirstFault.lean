/-!
# First Faults

A computation that runs through checks one after the other, and whose value does not depend on
them, is its value unless one of the checks finds a fault.  Checks in sequence report the first
fault that any of them finds.
-/

namespace StagedQuery

variable {α β ε δ : Type}

/-- The value, unless there is a fault. -/
def okUnless (fault? : Option ε) (value : α) : Except ε α :=
  match fault? with
  | some fault => .error fault
  | none => .ok value

@[simp]
theorem okUnless_none (value : α) : okUnless (none : Option ε) value = .ok value := rfl

/-- Of two checks in sequence the first one counts. -/
theorem okUnless_bind (fault? : Option ε) (value : α) (next? : α → Option ε) (result : α → β) :
    (okUnless fault? value >>= fun value ↦ okUnless (next? value) (result value)) =
      okUnless (fault?.or (next? value)) (result value) := by
  cases fault? <;> rfl

theorem okUnless_bind_pure (fault? : Option ε) (value : α) (result : α → β) :
    (okUnless fault? value >>= fun value ↦ pure (result value)) =
      okUnless fault? (result value) := by
  cases fault? <;> rfl

theorem map_okUnless (fault? : Option ε) (value : α) (f : α → β) :
    (okUnless fault? value).map f = okUnless fault? (f value) := by
  cases fault? <;> rfl

theorem mapError_okUnless (fault? : Option ε) (value : α) (rename : ε → δ) :
    (okUnless fault? value).mapError rename = okUnless (fault?.map rename) value := by
  cases fault? <;> rfl

theorem okUnless_eq_ok_iff {fault? : Option ε} {value result : α} :
    okUnless fault? value = .ok result ↔ fault? = none ∧ value = result := by
  cases fault? <;> simp [okUnless]

/-- A computation has a value exactly if it has one at every step. -/
theorem bind_eq_ok_iff {result : Except ε α} {next : α → Except ε β} {value : β} :
    result >>= next = .ok value ↔ ∃ middle, result = .ok middle ∧ next middle = .ok value := by
  cases result with
  | error fault => exact ⟨fun h ↦ (by cases h), fun ⟨_, h, _⟩ ↦ (by cases h)⟩
  | ok middle => exact ⟨fun h ↦ ⟨middle, rfl, h⟩, fun ⟨_, h, hnext⟩ ↦ (by cases h; exact hnext)⟩

theorem bind_eq_ok {result : Except ε α} {next : α → Except ε β} {value : β}
    (h : result >>= next = .ok value) :
    ∃ middle, result = .ok middle ∧ next middle = .ok value :=
  bind_eq_ok_iff.1 h

theorem pure_eq_ok_iff {value result : α} :
    (pure value : Except ε α) = .ok result ↔ value = result := by
  simp [pure, Except.pure]

theorem map_eq_ok_iff {result : Except ε α} {f : α → β} {value : β} :
    result.map f = .ok value ↔ ∃ middle, result = .ok middle ∧ f middle = value := by
  cases result <;> simp [Except.map]

theorem mapError_eq_ok_iff {result : Except ε α} {rename : ε → δ} {value : α} :
    result.mapError rename = .ok value ↔ result = .ok value := by
  cases result with
  | error fault => exact ⟨fun h ↦ (by cases h), fun h ↦ (by cases h)⟩
  | ok found =>
    exact ⟨fun h ↦ congrArg Except.ok (Except.ok.inj h),
      fun h ↦ congrArg Except.ok (Except.ok.inj h)⟩

/-! ## Faults in order -/

/-- The computation fails with the first of the faults, and has a value if there is none. -/
def ReportsFirst (result : Except ε α) : List ε → Prop
  | [] => ∃ value, result = .ok value
  | fault :: _ => result = .error fault

theorem reportsFirst_ok (value : α) : ReportsFirst (.ok value : Except ε α) [] := ⟨value, rfl⟩

theorem reportsFirst_okUnless (faults : List ε) (value : α) :
    ReportsFirst (okUnless faults.head? value) faults := by
  cases faults with
  | nil => exact reportsFirst_ok value
  | cons fault rest => rfl

namespace ReportsFirst

variable {result : Except ε α} {faults later : List ε}

theorem eq_error_iff (h : ReportsFirst result faults) (fault : ε) :
    result = .error fault ↔ faults.head? = some fault := by
  cases faults with
  | nil =>
    obtain ⟨value, rfl⟩ := h
    simp
  | cons first rest =>
    rw [show result = .error first from h]
    simp

/-- What follows is only reached if there is no fault before it. -/
theorem bind {next : α → Except ε β} (hresult : ReportsFirst result faults)
    (hnext : ∀ value, result = .ok value → ReportsFirst (next value) later) :
    ReportsFirst (result >>= next) (faults ++ later) := by
  cases faults with
  | nil =>
    obtain ⟨value, rfl⟩ := hresult
    exact hnext value rfl
  | cons first rest =>
    rw [show result = .error first from hresult]
    rfl

theorem mapError (h : ReportsFirst result faults) (rename : ε → δ) :
    ReportsFirst (result.mapError rename) (faults.map rename) := by
  cases faults with
  | nil =>
    obtain ⟨value, rfl⟩ := h
    exact reportsFirst_ok value
  | cons first rest =>
    rw [show result = .error first from h]
    rfl

theorem foldlM {step : β → α → Except ε β} {faults : α → List ε}
    (hstep : ∀ state item, ReportsFirst (step state item) (faults item)) (items : List α)
    (state : β) : ReportsFirst (items.foldlM step state) (items.flatMap faults) := by
  induction items generalizing state with
  | nil => exact reportsFirst_ok state
  | cons item rest ih =>
    rw [List.foldlM_cons, List.flatMap_cons]
    apply (hstep state item).bind
    intro next _
    exact ih next

end ReportsFirst

end StagedQuery
