import SceneEditor.Bridge

namespace SceneEditor

namespace Effect

variable {σ α β : Type}

def runOn (x : Effect σ α) (s : σ) : Except Cause α × σ := x.run.run s

theorem runOn_bind (x : Effect σ α) (f : α → Effect σ β) (s : σ) :
    runOn (x >>= f) s = match runOn x s with
      | (.ok a, s) => runOn (f a) s
      | (.error e, s) => (.error e, s) := by
  change (match runOn x s with | (a, s) => StateT.run (ExceptT.bindCont f a) s) = _
  rcases runOn x s with ⟨e | a, s⟩ <;> rfl

theorem runOn_get (s : σ) : runOn get s = (.ok s, s) := rfl

theorem runOn_modify (f : σ → σ) (s : σ) : runOn (modify f) s = (.ok ⟨⟩, f s) := rfl

theorem runOn_lift (x : Except Cause α) (s : σ) : runOn (liftM x) s = (x, s) := rfl

theorem runOn_tryCatch (x : Effect σ α) (handle : Cause → Effect σ α) (s : σ) :
    runOn (tryCatch x handle) s = match runOn x s with
      | (.ok a, s) => (.ok a, s)
      | (.error e, s) => runOn (handle e) s := by
  change StateT.run (ExceptT.tryCatch x handle) s = _
  unfold ExceptT.tryCatch
  simp only [ExceptT.mk, StateT.run_bind]
  rcases h : runOn x s with ⟨e | a, t⟩
  · replace h : StateT.run x s = (.error e, t) := h
    rw [h]
    rfl
  · replace h : StateT.run x s = (.ok a, t) := h
    rw [h]
    rfl

theorem runOn_tryCatch_of_handled {x : Effect σ α} {handle : Cause → Effect σ α}
    (h : ∀ e s, ∃ a t, (handle e).runOn s = (.ok a, t)) (s : σ) :
    ∃ a t, runOn (tryCatch x handle) s = (.ok a, t) := by
  rw [runOn_tryCatch]
  rcases runOn x s with ⟨e | a, t⟩
  · exact h e t
  · exact ⟨a, t, rfl⟩

/-- Whatever state an effect leaves is related to a given one, if the state it finds is. -/
def Keeps (R : σ → σ → Prop) (s₀ : σ) (x : Effect σ α) : Prop := ∀ s, R s₀ s → R s₀ (x.runOn s).2

namespace Keeps

variable {R : σ → σ → Prop} {s₀ : σ}

theorem pure (a : α) : Keeps R s₀ (Pure.pure a) := fun _ h => h

theorem lift (x : Except Cause α) : Keeps R s₀ (liftM x) := fun _ h => h

theorem throw (e : Cause) : Keeps R s₀ (MonadExcept.throw e : Effect σ α) := fun _ h => h

theorem set {t : σ} (h : R s₀ t) : Keeps R s₀ (MonadStateOf.set t) := fun _ _ => h

theorem modify {f : σ → σ} (h : ∀ s, R s₀ s → R s₀ (f s)) : Keeps R s₀ (modify f) := h

theorem bind {x : Effect σ α} {f : α → Effect σ β} (hx : Keeps R s₀ x)
    (hf : ∀ a, Keeps R s₀ (f a)) : Keeps R s₀ (x >>= f) := by
  intro s hs
  have hfirst := hx s hs
  rw [runOn_bind]
  rcases hrun : runOn x s with ⟨_ | a, t⟩
  · rwa [hrun] at hfirst
  · rw [hrun] at hfirst
    exact hf a t hfirst

theorem discard {x : Effect σ α} (hx : Keeps R s₀ x) : Keeps R s₀ (Functor.discard x) := by
  intro s hs
  have hfirst := hx s hs
  have hrun : (runOn (Functor.discard x) s).2 = (runOn x s).2 := by
    change (StateT.run (ExceptT.map (fun _ => PUnit.unit) x) s).2 = _
    unfold ExceptT.map
    simp only [ExceptT.mk, StateT.run_bind]
    rcases hrun : runOn x s with ⟨_ | a, t⟩
    · replace hrun : StateT.run x s = (.error _, t) := hrun
      rw [hrun]
      rfl
    · replace hrun : StateT.run x s = (.ok a, t) := hrun
      rw [hrun]
      rfl
  rwa [hrun]

theorem get_bind {f : σ → Effect σ α} (hf : ∀ s, R s₀ s → Keeps R s₀ (f s)) :
    Keeps R s₀ (get >>= f) := by
  intro s hs
  rw [runOn_bind, runOn_get]
  exact hf s hs s hs

theorem tryCatch {x : Effect σ α} {handle : Cause → Effect σ α} (hx : Keeps R s₀ x)
    (hhandle : ∀ e, Keeps R s₀ (handle e)) : Keeps R s₀ (MonadExcept.tryCatch x handle) := by
  intro s hs
  have hfirst := hx s hs
  rw [runOn_tryCatch]
  rcases hrun : runOn x s with ⟨e | a, t⟩
  · rw [hrun] at hfirst
    exact hhandle e t hfirst
  · rwa [hrun] at hfirst

theorem mapM {f : α → Effect σ β} (hf : ∀ a, Keeps R s₀ (f a)) (as : List α) :
    Keeps R s₀ (as.mapM f) := by
  induction as with
  | nil => exact pure []
  | cons a as ih =>
    rw [List.mapM_cons]
    exact (hf a).bind fun _ => ih.bind fun _ => pure _

theorem forIn {f : α → β → Effect σ (ForInStep β)} (hf : ∀ a b, Keeps R s₀ (f a b)) (as : List α)
    (b : β) : Keeps R s₀ (ForIn.forIn as b f) := by
  induction as generalizing b with
  | nil =>
    rw [List.forIn_nil]
    exact pure b
  | cons a as ih =>
    rw [List.forIn_cons]
    refine (hf a b).bind fun next => ?_
    cases next with
    | done b => exact pure b
    | yield b => exact ih b

end Keeps

end Effect

namespace Bridge

variable {η σ : Type} (call : Link η → Effect σ Unit) (report : Cause → Effect σ Unit)

theorem runOn_callEach_nil (s : σ) : (callEach call report []).runOn s = (.ok (), s) := rfl

theorem runOn_callEach_cons (link : Link η) (links : List (Link η)) (s : σ) :
    (callEach call report (link :: links)).runOn s =
      match (tryCatch (call link) report : Effect σ Unit).runOn s with
      | (.ok _, s) => (callEach call report links).runOn s
      | (.error e, s) => (.error e, s) := by
  rw [callEach, Effect.runOn_bind]
  rcases (tryCatch (call link) report : Effect σ Unit).runOn s with ⟨_ | _, t⟩ <;> rfl

theorem keeps_callEach {R : σ → σ → Prop} {s₀ : σ} (hcall : ∀ link, (call link).Keeps R s₀)
    (hreport : ∀ e, (report e).Keeps R s₀) (links : List (Link η)) :
    (callEach call report links).Keeps R s₀ := by
  induction links with
  | nil => exact .pure ()
  | cons link links ih =>
    rw [callEach]
    exact ((hcall link).tryCatch hreport).bind fun _ => ih

/-- What each call keeps is kept by all of them, unless the failure of one cannot be reported: then
those after it are not called. -/
theorem runOn_callEach_cases {P : List (Link η) → σ → Prop} {links : List (Link η)}
    (hstep : ∀ link ∈ links, ∀ done s, P done s →
      P (done ++ [link]) ((tryCatch (call link) report : Effect σ Unit).runOn s).2)
    {done : List (Link η)} {s : σ} (hs : P done s) :
    (∃ t, (callEach call report links).runOn s = (.ok (), t) ∧ P (done ++ links) t) ∨
    ∃ before link after u e t, links = before ++ link :: after ∧ P (done ++ before) u ∧
      (tryCatch (call link) report : Effect σ Unit).runOn u = (.error e, t) ∧
      (callEach call report links).runOn s = (.error e, t) := by
  induction links generalizing done s with
  | nil =>
    rw [List.append_nil]
    exact .inl ⟨s, runOn_callEach_nil call report s, hs⟩
  | cons link links ih =>
    rw [List.forall_mem_cons] at hstep
    have hfirst := hstep.1 done s hs
    rw [runOn_callEach_cons]
    rcases hcall : (tryCatch (call link) report : Effect σ Unit).runOn s with ⟨e | _, t⟩
    · exact .inr ⟨[], link, links, s, e, t, rfl, by rwa [List.append_nil], hcall, rfl⟩
    · rw [hcall] at hfirst
      rcases ih hstep.2 hfirst with ⟨u, hrun, hu⟩ | ⟨before, last, after, u, e, v, rfl, hu, hlast, hrun⟩
      · exact .inl ⟨u, hrun, by rwa [List.append_cons]⟩
      · exact .inr ⟨link :: before, last, after, u, e, v, rfl, by rwa [List.append_cons], hlast, hrun⟩

end Bridge

end SceneEditor
