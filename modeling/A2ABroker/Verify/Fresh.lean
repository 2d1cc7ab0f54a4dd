import A2ABroker.Verify.Refine.Broker

/-! # Drawn ids are fresh

The broker takes for granted that `randomUUID` never repeats and that no caller names an id that is
drawn later. Under these assumptions a drawn id is not in use when it is drawn, so that a creation
under it replaces nothing. -/

namespace A2ABroker

variable {env : Env} {s : State}

/-! ## Tables without ids to come -/

section
variable {α : Type} [Keyed α] {t : Table α} {a b : α} {i : String} {k m n : Nat}

/-- No id that is drawn from the `n`-th draw on is in use. -/
def Unused (env : Env) (t : Table α) (n : Nat) : Prop :=
  ∀ k, n ≤ k → t.get? (env.randomUUID k) = none

namespace Unused

theorem empty : Unused env (.empty : Table α) n := fun _ _ => rfl

theorem mono (h : Unused env t n) (hle : n ≤ m) : Unused env t m :=
  fun k hk => h k (hle.trans hk)

theorem retain (h : Unused env t n) (keep : α → Bool) : Unused env (t.retain keep) n := by
  intro k hk
  rw [Table.get?_retain, h k hk]
  rfl

/-- A row whose key is no id to come. -/
theorem set (h : Unused env t n) (ha : ∀ k, n ≤ k → key a ≠ env.randomUUID k) :
    Unused env (t.set a) n := by
  intro k hk
  rw [Table.get?_set_of_ne (ha k hk)]
  exact h k hk

/-- A row in the place of a stored one. -/
theorem replace (h : Unused env t n) (hget : t.get? (key a) = some b) : Unused env (t.set a) n := by
  refine h.set fun k hk he => ?_
  rw [he, h k hk] at hget
  cases hget

/-- The key of a stored row is no id to come. -/
theorem key_ne (h : Unused env t n) (hget : t.get? i = some b) (hk : n ≤ k) :
    i ≠ env.randomUUID k := by
  rintro rfl
  rw [h k hk] at hget
  cases hget

/-- A row under an id that was just drawn. -/
theorem drawn (h : Unused env t n) (hinj : Function.Injective env.randomUUID)
    (ha : key a = env.randomUUID k) (hk : k < m) (hle : n ≤ m) : Unused env (t.set a) m := by
  refine (h.mono hle).set fun j hj he => ?_
  have hkj : k = j := hinj (ha.symm.trans he)
  omega

end Unused

end

/-! ## Draws only grow -/

theorem Board.Step.draws_le {m : Move} {b b' : Board} (h : Board.Step env m b b') :
    b.draws ≤ b'.draws := by
  cases h with
  | prune h => exact h.draws.ge
  | draw | create_drawn | propose | openThread | post => simp
  | _ => exact Nat.le_refl _

theorem moves_draws_le {A : Move → Prop} {b b' : Board} (h : Moves (Board.Step env) A b b') :
    b.draws ≤ b'.draws :=
  h.invariant (P := fun x => b.draws ≤ x.draws) (fun _ _ _ _ hstep hle => hle.trans hstep.draws_le)
    (Nat.le_refl _)

/-! ## Tasks -/

/-- The caller names no id that is drawn later. -/
def Op.NamesNoDraw (env : Env) (s : State) : Op → Prop
  | createTask request => ∀ n, s.uuidDraws ≤ n → request.id ≠ some (env.randomUUID n)
  | _ => True

theorem Board.Step.unused_tasks {m : Move} {b b' : Board} (h : Board.Step env m b b')
    (hinj : Function.Injective env.randomUUID)
    (hnamed : ∀ t, m = .create t false → ∀ k, b.draws ≤ k → t.id ≠ env.randomUUID k)
    (hb : Unused env b.tasks b.draws) : Unused env b'.tasks b'.draws := by
  cases h with
  | draw | propose | openThread | post => exact hb.mono (by simp)
  | prune h =>
    obtain ⟨keep, htasks, -⟩ := h.tasks
    rw [htasks, h.draws]
    exact hb.retain keep
  | create_drawn hid => exact hb.drawn hinj hid (Nat.lt_succ_self _) (Nat.le_succ _)
  | create_named => exact hb.set fun k hk => hnamed _ rfl k hk
  | act hget hstep => exact hb.replace (b := _) (by rw [show key _ = _ from hstep.id_eq]; exact hget)
  | review | relink | restore => exact hb

theorem run_unused_tasks {C : State → Op → Prop} (hinj : Function.Injective env.randomUUID)
    {ops : List Op} (h : RunWith env C ops) (hC : ∀ s op, C s op → op.NamesNoDraw env s) :
    Unused env (run env ops).tasks (run env ops).uuidDraws := by
  refine run_board_invariant (P := fun b => Unused env b.tasks b.draws) h Unused.empty
    fun s op m b b' hop hpath hm hstep hb => ?_
  refine hstep.unused_tasks hinj (fun t ht k hk he => ?_) hb
  subst ht
  cases hm with
  | createNamed hid =>
    exact hC s _ hop k ((moves_draws_le hpath).trans hk) (hid.trans (congrArg some he))

/-! ## Exchanges -/

theorem exec_unused_exchanges (hinj : Function.Injective env.randomUUID)
    (hs : Unused env s.exchanges s.uuidDraws) (op : Op) :
    Unused env (exec env s op).exchanges (exec env s op).uuidDraws := by
  refine (exec_refines env s op).invariant_path (P := fun b => Unused env b.exchanges b.draws)
    (fun m b b' hpath hm hstep hb => ?_) hs
  cases hstep with
  | draw | create_drawn | propose => exact hb.mono (by simp)
  | prune h =>
    obtain ⟨keep, hkept, -⟩ := h.threads
    rw [hkept, h.draws]
    exact hb.retain _
  | openThread hid =>
    exact hb.drawn (m := b.draws + 2) hinj hid (by omega) (by omega)
  | post hget =>
    rename_i e m _ _ _
    exact (hb.replace (a := e.posted m) hget).mono (Nat.le_succ _)
  | relink hget hthread =>
    exact hb.replace (b := _) (by rw [show key _ = _ from hthread.id]; exact hget)
  -- an exchange that is set again was stored when the operation started
  | restore =>
    cases hm with
    | restore hstored =>
      obtain ⟨e, he⟩ := Option.isSome_iff_exists.mp hstored
      exact hb.set fun k hk => hs.key_ne he ((moves_draws_le hpath).trans hk)
  | _ => exact hb

theorem run_unused_exchanges (hinj : Function.Injective env.randomUUID) (ops : List Op) :
    Unused env (run env ops).exchanges (run env ops).uuidDraws := by
  induction ops using List.reverseRecOn with
  | nil => exact Unused.empty
  | append_singleton ops op ih =>
    rw [run_concat]
    exact exec_unused_exchanges hinj ih op

/-! ## The task under an id

Nothing but an act changes a stored task, and retention drops it; a creation would replace it only
under the empty id. -/

/-- A task is not created under the empty id, which `createTask` does not look up. -/
def Op.NamesTask : Op → Prop
  | createTask request => request.id ≠ some ""
  | _ => True

/-- What every act keeps of a task holds of whatever an operation leaves of it. -/
theorem exec_stored {P : TaskRecord → Prop} {op : Op} {id : String} {t : TaskRecord}
    (hP : ∀ a u u', TaskStep env.config.maxRequeueAttempts a u u' → P u → P u')
    (hunused : Unused env s.tasks s.uuidDraws) (hop : op.NamesTask)
    (hget : s.tasks.get? id = some t) (ht : P t) :
    (exec env s op).tasks.get? id = none ∨
      ∃ t', (exec env s op).tasks.get? id = some t' ∧ P t' := by
  refine (exec_refines env s op).invariant_path
    (P := fun b => b.tasks.get? id = none ∨ ∃ t', b.tasks.get? id = some t' ∧ P t')
    (fun m b b' hpath hm hstep hb => ?_) (.inr ⟨t, hget, ht⟩)
  -- a creation replaces nothing that was stored when the operation started
  have hcreate : ∀ u drawn, m = .create u drawn → u.id ≠ id := by
    rintro u drawn rfl rfl
    cases hstep with
    | create_drawn hid => exact hunused.key_ne hget (moves_draws_le hpath) hid
    | create_named =>
      cases hm with
      | createNamed hid habsent =>
        have hne : u.id ≠ "" := fun he => hop (hid.trans (congrArg some he))
        rw [habsent hne] at hget
        cases hget
  rcases hstep.tasks_cases with ⟨u, drawn, hm', hset, -⟩ | ⟨a, u, u', -, hu, hact, hset⟩ |
    ⟨keep, hkeep, -⟩
  · rw [hset, Table.get?_set_of_ne (hcreate u drawn hm')]
    exact hb
  · rw [hset, Table.get?_set, show key u' = u.id from hact.id_eq]
    split
    · rename_i heq
      rw [heq] at hu
      rcases hb with hnone | ⟨t', ht', hPt'⟩
      · rw [hnone] at hu
        cases hu
      · obtain rfl : t' = u := Option.some.inj (ht'.symm.trans hu)
        exact .inr ⟨u', rfl, hP a t' u' hact hPt'⟩
    · exact hb
  · rw [hkeep, Table.get?_retain]
    rcases hb with hnone | ⟨t', ht', hPt'⟩
    · rw [hnone]
      exact .inl rfl
    · rw [ht', Option.filter_some]
      split
      · exact .inr ⟨t', rfl, hPt'⟩
      · exact .inl rfl

/-- The callers name their tasks, and name no id that is drawn later. -/
def Op.Names (env : Env) (s : State) (op : Op) : Prop := op.NamesNoDraw env s ∧ op.NamesTask

/-- The task `id` is retained from the end of `before` through `after`. -/
def RetainedOver (env : Env) (before after : List Op) (id : String) : Prop :=
  ∀ part, part <+: after → ((run env (before ++ part)).tasks.get? id).isSome = true

/-- What every act keeps of a task holds of it for as long as it is retained. -/
theorem run_stored {P : TaskRecord → Prop} {before after : List Op} {id : String} {t : TaskRecord}
    (hP : ∀ a u u', TaskStep env.config.maxRequeueAttempts a u u' → P u → P u')
    (hinj : Function.Injective env.randomUUID)
    (h : RunWith env (fun s op => op.Names env s) (before ++ after))
    (hget : (run env before).tasks.get? id = some t) (ht : P t)
    (hretained : RetainedOver env before after id) :
    ∃ t', (run env (before ++ after)).tasks.get? id = some t' ∧ P t' := by
  induction after using List.reverseRecOn with
  | nil => exact ⟨t, by rwa [List.append_nil], ht⟩
  | append_singleton after op ih =>
    rw [← List.append_assoc] at h ⊢
    obtain ⟨t₁, ht₁, hPt₁⟩ := ih h.of_append fun part hpart =>
      hretained part (hpart.trans (List.prefix_append _ _))
    have hunused := run_unused_tasks hinj h.of_append fun _ _ hop => hop.1
    have hkept := hretained (after ++ [op]) (List.prefix_refl _)
    rw [← List.append_assoc, run_concat] at hkept
    rw [run_concat]
    rcases exec_stored hP hunused h.last.2 ht₁ hPt₁ with hnone | hsome
    · rw [hnone] at hkept
      cases hkept
    · exact hsome

end A2ABroker
