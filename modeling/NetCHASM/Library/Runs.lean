import Mathlib.Data.List.Basic

/-! Runs of an event-driven transition function. A step that is not enabled
returns `none`, and `Along` says that every step of a run meets a condition on
the state before it. -/
namespace Runs

variable {S E : Type} {step : S → E → Option S} {cond : S → E → Prop}

def runTrace (step : S → E → Option S) : S → List E → Option S
  | s, [] => some s
  | s, e :: es => (step s e).bind fun s' => runTrace step s' es

def Along (step : S → E → Option S) (cond : S → E → Prop) : S → List E → Prop
  | _, [] => True
  | s, e :: es => cond s e ∧ ∀ s', step s e = some s' → Along step cond s' es

def decidableAlong (step : S → E → Option S) (cond : S → E → Prop)
    [∀ s e, Decidable (cond s e)] : (s : S) → (es : List E) → Decidable (Along step cond s es)
  | _, [] => isTrue trivial
  | s, e :: es =>
    match h : step s e with
    | none => decidable_of_iff (cond s e) (by simp [Along, h])
    | some m =>
      have := decidableAlong step cond m es
      decidable_of_iff (cond s e ∧ Along step cond m es) (by simp [Along, h])

instance [∀ s e, Decidable (cond s e)] (s : S) (es : List E) : Decidable (Along step cond s es) :=
  decidableAlong step cond s es

@[simp] theorem runTrace_nil (s : S) : runTrace step s [] = some s := rfl

theorem runTrace_cons {s s' : S} {e : E} {es : List E} :
    runTrace step s (e :: es) = some s' ↔
      ∃ m, step s e = some m ∧ runTrace step m es = some s' := by
  simp [runTrace, Option.bind_eq_some_iff]

theorem along_append {s m : S} {es es' : List E} (hrun : runTrace step s es = some m)
    (halong : Along step cond s (es ++ es')) : Along step cond s es ∧ Along step cond m es' := by
  induction es generalizing s with
  | nil =>
    obtain rfl : s = m := by simpa using hrun
    exact ⟨trivial, halong⟩
  | cons e es ih =>
    rcases runTrace_cons.mp hrun with ⟨n, hn, hrest⟩
    have hparts := ih hrest (halong.2 n hn)
    refine ⟨⟨halong.1, ?_⟩, hparts.2⟩
    intro n' hn'
    obtain rfl : n = n' := Option.some.inj (hn.symm.trans hn')
    exact hparts.1

theorem along_and {cond' : S → E → Prop} {s : S} {es : List E} (h : Along step cond s es)
    (h' : Along step cond' s es) : Along step (fun s e => cond s e ∧ cond' s e) s es := by
  induction es generalizing s with
  | nil => trivial
  | cons e es ih => exact ⟨⟨h.1, h'.1⟩, fun m hm => ih (h.2 m hm) (h'.2 m hm)⟩

theorem along_of_forall (h : ∀ s e, cond s e) (s : S) (es : List E) : Along step cond s es := by
  induction es generalizing s with
  | nil => trivial
  | cons e es ih => exact ⟨h s e, fun m _ => ih m⟩

/-- A run that meets one condition meets another that follows from it and what its steps keep. -/
theorem along_of_invariant {Inv : S → Prop} {cond' : S → E → Prop}
    (hcond : ∀ {s e}, Inv s → cond s e → cond' s e)
    (hstep : ∀ {s e s'}, Inv s → cond s e → step s e = some s' → Inv s') {s : S} {es : List E}
    (hinit : Inv s) (halong : Along step cond s es) : Along step cond' s es := by
  induction es generalizing s with
  | nil => trivial
  | cons e es ih =>
    rcases halong with ⟨hfirst, hrest⟩
    exact ⟨hcond hinit hfirst, fun m hm => ih (hstep hinit hfirst hm) (hrest m hm)⟩

/-- Two conditions hold along the same runs if they agree in every state that the second one
keeps to. -/
theorem along_iff_along {Inv : S → Prop} {side cond' : S → E → Prop}
    (hiff : ∀ {s e}, Inv s → side s e → (cond s e ↔ cond' s e))
    (hstep : ∀ {s e s'}, Inv s → side s e → cond' s e → step s e = some s' → Inv s') {s : S}
    {es : List E} (hinit : Inv s) (hside : Along step side s es) :
    Along step cond s es ↔ Along step cond' s es := by
  constructor
  · intro halong
    apply along_of_invariant _ _ hinit (along_and hside halong)
    · intro s e hs h
      exact (hiff hs h.1).mp h.2
    · intro s e s' hs h hm
      exact hstep hs h.1 ((hiff hs h.1).mp h.2) hm
  · intro halong
    apply along_of_invariant _ _ hinit (along_and hside halong)
    · intro s e hs h
      exact (hiff hs h.1).mpr h.2
    · intro s e s' hs h hm
      exact hstep hs h.1 h.2 hm

/-- What every step that meets the condition preserves holds after every run whose
steps all meet it. -/
theorem invariant_of_step {Inv : S → Prop}
    (hstep : ∀ {s e s'}, Inv s → cond s e → step s e = some s' → Inv s')
    {s s' : S} {es : List E} (hinit : Inv s) (halong : Along step cond s es)
    (hrun : runTrace step s es = some s') : Inv s' := by
  induction es generalizing s with
  | nil =>
    obtain rfl : s = s' := by simpa using hrun
    exact hinit
  | cons e es ih =>
    rcases runTrace_cons.mp hrun with ⟨m, hm, hrest⟩
    exact ih (hstep hinit halong.1 hm) (halong.2 m hm) hrest

/-- Where a step that shows what is wanted meets the condition, and one that meets it keeps the
invariant, a run meets it everywhere just when every state on the way shows what is wanted. -/
theorem observed_iff_along {Inv Obs : S → Prop} (hobs : ∀ {s}, Inv s → Obs s)
    (hstep : ∀ {s e s'}, Inv s → step s e = some s' → (Obs s' → cond s e) ∧ (cond s e → Inv s'))
    (hdisabled : ∀ {s e}, step s e = none → cond s e) {s : S} (hinit : Inv s) (es : List E) :
    (∀ es₁ s', es₁ <+: es → runTrace step s es₁ = some s' → Obs s') ↔ Along step cond s es := by
  induction es generalizing s with
  | nil =>
    constructor
    · intro _
      trivial
    · intro _ es₁ s' hle hrun
      obtain rfl := List.prefix_nil.mp hle
      obtain rfl : s = s' := by simpa using hrun
      exact hobs hinit
  | cons e es ih =>
    constructor
    · intro hall
      have hfirst : ∀ m, step s e = some m → cond s e := by
        intro m hm
        apply (hstep hinit hm).1
        apply hall [e] m (by simp)
        exact runTrace_cons.mpr ⟨m, hm, rfl⟩
      constructor
      · cases hm : step s e with
        | none => exact hdisabled hm
        | some m => exact hfirst m hm
      · intro m hm
        rw [← ih ((hstep hinit hm).2 (hfirst m hm))]
        intro es₁ s' hle hrun
        apply hall (e :: es₁) s' ((List.prefix_cons_inj e).mpr hle)
        exact runTrace_cons.mpr ⟨m, hm, hrun⟩
    · intro halong es₁ s' hle hrun
      rcases List.prefix_cons_iff.mp hle with rfl | ⟨es₂, rfl, hle₂⟩
      · obtain rfl : s = s' := by simpa using hrun
        exact hobs hinit
      · rcases runTrace_cons.mp hrun with ⟨m, hm, hrest⟩
        have hm' : Inv m := (hstep hinit hm).2 halong.1
        exact (ih hm').mpr (halong.2 m hm) es₂ s' hle₂ hrest

/-- Where a step keeps the invariant just when it meets the condition, a run meets it
everywhere just when the invariant holds in every state on the way. -/
theorem invariant_iff_along {Inv : S → Prop}
    (hstep : ∀ {s e s'}, Inv s → step s e = some s' → (Inv s' ↔ cond s e))
    (hdisabled : ∀ {s e}, step s e = none → cond s e) {s : S} (hinit : Inv s) (es : List E) :
    (∀ es₁ s', es₁ <+: es → runTrace step s es₁ = some s' → Inv s') ↔ Along step cond s es :=
  observed_iff_along id (fun hs hm => ⟨(hstep hs hm).mp, (hstep hs hm).mpr⟩) hdisabled hinit es

/-- A fold has what one of its elements establishes and all of them keep. -/
theorem foldl_of_mem {f : S → E → S} {P : S → Prop} {e : E} {es : List E} (he : e ∈ es)
    (hown : ∀ s, P (f s e)) (hkeeps : ∀ s, ∀ e' ∈ es, P s → P (f s e')) (s : S) :
    P (es.foldl f s) := by
  induction es generalizing s with
  | nil => cases he
  | cons e' es ih =>
    have hrest : ∀ s, ∀ e'' ∈ es, P s → P (f s e'') :=
      fun s e'' he'' => hkeeps s e'' (List.mem_cons_of_mem e' he'')
    rw [List.foldl_cons]
    rcases List.mem_cons.mp he with rfl | hmem
    · exact List.foldlRecOn (motive := P) es f (hown s) fun s hs e'' he'' => hrest s e'' he'' hs
    · exact ih hmem hrest (f s e')

/-- What is seen of a run after each of its events. -/
def observations {O : Type} (next : S → E → S) (observe : S → O) : S → List E → List O
  | _, [] => []
  | s, e :: es => observe (next s e) :: observations next observe (next s e) es

/-- Two runs look the same if every event keeps their states related, and related states after
an event look the same. -/
theorem observations_eq {O : Type} {next : S → E → S} {observe : S → O} {Related : S → S → Prop}
    (hnext : ∀ {s t} e, Related s t → Related (next s e) (next t e) ∧
      observe (next s e) = observe (next t e)) {s t : S} (h : Related s t) (es : List E) :
    observations next observe s es = observations next observe t es := by
  induction es generalizing s t with
  | nil => rfl
  | cons e es ih =>
    obtain ⟨hrelated, hobserve⟩ := hnext e h
    rw [observations, observations, hobserve, ih hrelated]

/-- What is seen of a run after each of the events that are kept. -/
def observationsOf {O : Type} (keep : E → Bool) (next : S → E → S) (observe : S → O) :
    S → List E → List O
  | _, [] => []
  | s, e :: es =>
    if keep e then observe (next s e) :: observationsOf keep next observe (next s e) es
    else observationsOf keep next observe (next s e) es

/-- Events that leave what a run looks like alone can be left out of it. -/
theorem observationsOf_eq_filter {O : Type} {keep : E → Bool} {next : S → E → S} {observe : S → O}
    (hnext : ∀ {s t} e, observe s = observe t → observe (next s e) = observe (next t e))
    {es : List E} (hhidden : ∀ e ∈ es, keep e = false → ∀ s, observe (next s e) = observe s)
    {s t : S} (h : observe s = observe t) :
    observationsOf keep next observe s es = observations next observe t (es.filter keep) := by
  induction es generalizing s t with
  | nil => rfl
  | cons e es ih =>
    have hrest := fun e' he' => hhidden e' (List.mem_cons_of_mem e he')
    cases hkeep : keep e with
    | false =>
      rw [observationsOf, List.filter_cons_of_neg (by simp [hkeep]), hkeep, if_neg Bool.false_ne_true]
      exact ih hrest ((hhidden e List.mem_cons_self hkeep s).trans h)
    | true =>
      rw [observationsOf, List.filter_cons_of_pos hkeep, hkeep, if_pos rfl, observations,
        hnext e h, ih hrest (hnext e h)]

end Runs
