import GBerry.Foundation.Execution

/-!
# Programs that may fail

A program changes a state and makes outputs, or fails.  Programs are composed as
the statements of a program are, and run on a part of a larger state.  What a
program ensures is a relation between the states before and after it and its
outputs; a relation that composes is ensured by a composition of programs when
every part ensures it.
-/

namespace GBerry.Foundation

variable {σ τ ω ω' ε ε' ℓ : Type*}

abbrev Fallible (σ ω ε : Type*) := σ → Except ε (σ × List ω)

namespace Fallible

def skip : Fallible σ ω ε := fun s => .ok (s, [])

def emit (outputs : List ω) : Fallible σ ω ε := fun s => .ok (s, outputs)

def update (change : σ → σ) : Fallible σ ω ε := fun s => .ok (change s, [])

def andThen (first next : Fallible σ ω ε) : Fallible σ ω ε := fun s =>
  match first s with
  | .error e => .error e
  | .ok (s', out) =>
      match next s' with
      | .error e => .error e
      | .ok (s'', out') => .ok (s'', out ++ out')

def reading {α : Type*} (get : σ → Except ε α) (next : α → Fallible σ ω ε) :
    Fallible σ ω ε := fun s =>
  match get s with
  | .error e => .error e
  | .ok a => next a s

def forEach {α : Type*} (program : α → Fallible σ ω ε) : List α → Fallible σ ω ε
  | [] => skip
  | a :: rest => (program a).andThen (forEach program rest)

/-- A program that reacts to what it has output itself. -/
def thenReact {α : Type*} (program : Fallible σ ω ε) (reactions : List ω → List α)
    (react : α → Fallible σ ω ε) : Fallible σ ω ε := fun s =>
  match program s with
  | .error e => .error e
  | .ok (s', out) => (emit out).andThen (forEach react (reactions out)) s'

def within (get : τ → σ) (set : σ → τ → τ) (output : ω → ω') (program : Fallible σ ω ε) :
    Fallible τ ω' ε := fun t =>
  match program (get t) with
  | .error e => .error e
  | .ok (s, out) => .ok (set s t, out.map output)

def withFault (fault : ε → ε') (program : Fallible σ ω ε) : Fallible σ ω ε' := fun s =>
  match program s with
  | .error e => .error (fault e)
  | .ok result => .ok result

section Results

variable {program first next : Fallible σ ω ε} {s s'' : σ} {out : List ω}

theorem andThen_ok (h : first.andThen next s = .ok (s'', out)) :
    ∃ s' out₁ out₂, first s = .ok (s', out₁) ∧ next s' = .ok (s'', out₂) ∧
      out = out₁ ++ out₂ := by
  unfold andThen at h
  split at h
  · cases h
  rename_i s' out₁ hfirst
  split at h
  · cases h
  · rename_i s₂ out₂ hnext
    cases h
    exact ⟨s', out₁, out₂, hfirst, hnext, rfl⟩

theorem reading_ok {α : Type*} {get : σ → Except ε α} {next : α → Fallible σ ω ε}
    (h : reading get next s = .ok (s'', out)) :
    ∃ a, get s = .ok a ∧ next a s = .ok (s'', out) := by
  unfold reading at h
  split at h
  · cases h
  · rename_i a hget
    exact ⟨a, hget, h⟩

theorem thenReact_ok {α : Type*} {reactions : List ω → List α}
    {react : α → Fallible σ ω ε}
    (h : program.thenReact reactions react s = .ok (s'', out)) :
    ∃ s' out₁ out₂, program s = .ok (s', out₁) ∧
      forEach react (reactions out₁) s' = .ok (s'', out₂) ∧ out = out₁ ++ out₂ := by
  unfold thenReact at h
  split at h
  · cases h
  rename_i s' out₁ hprogram
  obtain ⟨_, _, out₂, hemit, hreact, rfl⟩ := andThen_ok h
  cases hemit
  exact ⟨s', out₁, out₂, hprogram, hreact, rfl⟩

theorem withFault_ok {fault : ε → ε'} (h : withFault fault program s = .ok (s'', out)) :
    program s = .ok (s'', out) := by
  unfold withFault at h
  split at h
  · cases h
  · rename_i result hprogram
    cases h
    exact hprogram

theorem within_ok {get : τ → σ} {set : σ → τ → τ} {output : ω → ω'} {t t' : τ}
    {outputs : List ω'} (h : within get set output program t = .ok (t', outputs)) :
    ∃ s' out, program (get t) = .ok (s', out) ∧ t' = set s' t ∧
      outputs = out.map output := by
  unfold within at h
  split at h
  · cases h
  · rename_i s' out hprogram
    cases h
    exact ⟨s', out, hprogram, rfl, rfl⟩

end Results

def Runs (program : Fallible σ ω ε) (s : σ) : Prop :=
  ∃ result, program s = .ok result

section Running

variable {program first next : Fallible σ ω ε} {s : σ}

theorem runs_ok {s' : σ} {out : List ω} (h : program s = .ok (s', out)) : Runs program s :=
  ⟨(s', out), h⟩

theorem runs_andThen : Runs (first.andThen next) s ↔
    ∃ s' out, first s = .ok (s', out) ∧ Runs next s' := by
  constructor
  · rintro ⟨⟨s'', out⟩, h⟩
    obtain ⟨s', out₁, out₂, hfirst, hnext, -⟩ := andThen_ok h
    exact ⟨s', out₁, hfirst, runs_ok hnext⟩
  · rintro ⟨s', out, hfirst, ⟨s'', out'⟩, hnext⟩
    refine ⟨(s'', out ++ out'), ?_⟩
    simp only [andThen, hfirst, hnext]

theorem runs_skip_andThen : Runs (skip.andThen next) s ↔ Runs next s := by
  rw [runs_andThen]
  constructor
  · rintro ⟨s', out, hskip, hnext⟩
    cases hskip
    exact hnext
  · intro hnext
    exact ⟨s, [], rfl, hnext⟩

theorem runs_within {get : τ → σ} {set : σ → τ → τ} {output : ω → ω'} {t : τ} :
    Runs (within get set output program) t ↔ Runs program (get t) := by
  constructor
  · rintro ⟨⟨t', outputs⟩, h⟩
    obtain ⟨s', out, hprogram, -, -⟩ := within_ok h
    exact runs_ok hprogram
  · rintro ⟨⟨s', out⟩, hprogram⟩
    refine ⟨(set s' t, out.map output), ?_⟩
    simp only [within, hprogram]

/-- Programs that run where an invariant holds, and keep it, run one after the other. -/
theorem runs_forEach {α : Type*} {program : α → Fallible σ ω ε} {I : σ → Prop}
    {l : List α} (hprogram : ∀ a ∈ l, ∀ s, I s → ∃ s' out, program a s = .ok (s', out) ∧ I s')
    (hs : I s) : Runs (forEach program l) s := by
  induction l generalizing s with
  | nil => exact ⟨_, rfl⟩
  | cons a rest ih =>
      obtain ⟨s', out, ha, hs'⟩ := hprogram a List.mem_cons_self s hs
      refine runs_andThen.mpr ⟨s', out, ha, ih ?_ hs'⟩
      intro b hb
      exact hprogram b (List.mem_cons_of_mem a hb)

theorem runs_thenReact {α : Type*} {reactions : List ω → List α}
    {react : α → Fallible σ ω ε} : Runs (program.thenReact reactions react) s ↔
    ∃ s' out, program s = .ok (s', out) ∧ Runs (forEach react (reactions out)) s' := by
  constructor
  · rintro ⟨⟨s'', out⟩, h⟩
    obtain ⟨s', out₁, out₂, hprogram, hreact, -⟩ := thenReact_ok h
    exact ⟨s', out₁, hprogram, runs_ok hreact⟩
  · rintro ⟨s', out, hprogram, ⟨s'', out'⟩, hreact⟩
    refine ⟨(s'', out ++ out'), ?_⟩
    simp only [thenReact, hprogram, andThen, emit, hreact]

end Running

/-- What holds of the states before and after, and of the outputs. -/
def Ensures (R : σ → σ → List ω → Prop) (program : Fallible σ ω ε) : Prop :=
  ∀ s s' out, program s = .ok (s', out) → R s s' out

/-- A relation that holds over a composition when it holds over the parts. -/
structure Composes (R : σ → σ → List ω → Prop) : Prop where
  refl : ∀ s, R s s []
  trans : ∀ {s s' s'' out out'}, R s s' out → R s' s'' out' → R s s'' (out ++ out')

namespace Ensures

variable {R : σ → σ → List ω → Prop} {program first next : Fallible σ ω ε}

theorem skip (hR : Composes R) : Ensures R (skip : Fallible σ ω ε) := by
  intro s s' out h
  cases h
  exact hR.refl s

theorem emit {outputs : List ω} (h : ∀ s, R s s outputs) :
    Ensures R (emit outputs : Fallible σ ω ε) := by
  intro s s' out hemit
  cases hemit
  exact h s

theorem update {change : σ → σ} (h : ∀ s, R s (change s) []) :
    Ensures R (update change : Fallible σ ω ε) := by
  intro s s' out hupdate
  cases hupdate
  exact h s

theorem andThen (hR : Composes R) (hfirst : Ensures R first) (hnext : Ensures R next) :
    Ensures R (first.andThen next) := by
  intro s s'' out h
  obtain ⟨s', out₁, out₂, hs', hs'', rfl⟩ := andThen_ok h
  exact hR.trans (hfirst s s' out₁ hs') (hnext s' s'' out₂ hs'')

theorem forEach {α : Type*} {program : α → Fallible σ ω ε} (hR : Composes R) {l : List α}
    (h : ∀ a ∈ l, Ensures R (program a)) : Ensures R (forEach program l) := by
  induction l with
  | nil => exact skip hR
  | cons a rest ih =>
      have hrest := ih fun b hb => h b (List.mem_cons_of_mem a hb)
      exact andThen hR (h a List.mem_cons_self) hrest

theorem within {get : τ → σ} {set : σ → τ → τ} {output : ω → ω'}
    {R' : τ → τ → List ω' → Prop} (hprogram : Ensures R program)
    (hR' : ∀ t s' out, R (get t) s' out → R' t (set s' t) (out.map output)) :
    Ensures R' (within get set output program) := by
  intro t t' outputs h
  obtain ⟨s', out, hs', rfl, rfl⟩ := within_ok h
  exact hR' t s' out (hprogram (get t) s' out hs')

end Ensures

def machine (init : σ) (program : ℓ → Fallible σ ω ε) : Machine σ ℓ ω ε where
  init := init
  step s l := program l s

end Fallible

end GBerry.Foundation
