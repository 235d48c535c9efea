import IntentContract.Files.Tree
import Mathlib.Data.List.Forall2

/-!
# Actions in a world

A command is an action over any host. In a world it comes to a result and leaves a world behind
(`World.perform`). Most of what commands do is **reading** files: the result depends on nothing but
the tree, and the world stays as it is. Actions that are put together from readings are readings,
and what they come to can be worked out in `Except`, without the world being passed on
(`World.answer_bind`, `World.answer_mapM`).
-/

namespace IntentContract

/-! ## Results -/

/-- A step that follows another has a result if both have one. -/
theorem andThen_eq_ok_iff {ε α β : Type} {x : Except ε α} {f : α → Except ε β} {b : β} :
    x >>= f = .ok b ↔ ∃ a, x = .ok a ∧ f a = .ok b := by
  cases x with
  | error e => simp [bind, Except.bind]
  | ok a => simp [bind, Except.bind]

/-- Items that all have a result have their results together, one for each. -/
theorem mapM_eq_ok_iff {ε α β : Type} {f : α → Except ε β} {xs : List α} {ys : List β} :
    xs.mapM f = .ok ys ↔ List.Forall₂ (fun x y => f x = .ok y) xs ys := by
  induction xs generalizing ys with
  | nil => simp [pure, Except.pure, eq_comm]
  | cons x xs ih =>
    rw [List.mapM_cons, List.forall₂_cons_left_iff]
    simp only [← ih]
    cases hx : f x with
    | error e => simp [bind, Except.bind]
    | ok y =>
      cases hxs : xs.mapM f with
      | error e => simp [bind, Except.bind]
      | ok zs => simp [bind, Except.bind, pure, Except.pure, eq_comm]

/-- Items that have no results together have one among them that has none. -/
theorem exists_error_of_mapM {ε α β : Type} {f : α → Except ε β} {xs : List α} {e : ε}
    (h : xs.mapM f = .error e) : ∃ x ∈ xs, f x = .error e := by
  induction xs with
  | nil => cases h
  | cons x xs ih =>
    rw [List.mapM_cons] at h
    cases hx : f x with
    | error e' =>
      rw [hx] at h
      obtain rfl := Except.error.inj h
      exact ⟨x, List.mem_cons_self, hx⟩
    | ok y =>
      cases hxs : xs.mapM f with
      | error e' =>
        rw [hx, hxs] at h
        obtain rfl := Except.error.inj h
        obtain ⟨x', hx', hfail⟩ := ih hxs
        exact ⟨x', List.mem_cons_of_mem x hx', hfail⟩
      | ok ys =>
        rw [hx, hxs] at h
        cases h

namespace World

variable {ε α β : Type} {w : World}

/-- **What an action does in a world**: its result, and the world that it leaves. -/
def perform (w : World) (x : ExceptT ε (StateM World) α) : Except ε α × World :=
  x.run.run w

/-- What an action comes to in a world. -/
def answer (w : World) (x : ExceptT ε (StateM World) α) : Except ε α :=
  (w.perform x).1

/-- The world that an action leaves. -/
def after (w : World) (x : ExceptT ε (StateM World) α) : World :=
  (w.perform x).2

/-- **An action that only reads files**: what it comes to is the same in worlds with the same tree,
and it leaves every world as it is. -/
def IsReading (x : ExceptT ε (StateM World) α) : Prop :=
  ∀ w w' : World, w.tree = w'.tree → w.perform x = (w'.answer x, w)

theorem IsReading.perform_eq {x : ExceptT ε (StateM World) α} (hx : IsReading x) (w : World) :
    w.perform x = (w.answer x, w) :=
  hx w w rfl

theorem IsReading.answer_eq {x : ExceptT ε (StateM World) α} (hx : IsReading x) {w w' : World}
    (h : w.tree = w'.tree) : w.answer x = w'.answer x := by
  rw [answer, hx w w' h]

/-! ## Single steps -/

theorem isReading_pure (a : α) : IsReading (pure a : ExceptT ε (StateM World) α) :=
  fun _ _ _ => rfl

theorem isReading_throw (e : ε) : IsReading (throw e : ExceptT ε (StateM World) α) :=
  fun _ _ _ => rfl

/-- A question about the tree. -/
theorem isReading_ask (f : FileTree → α) :
    IsReading (liftM (return f (← get).tree : StateM World α) : ExceptT ε (StateM World) α) :=
  fun w _ h => congrArg (fun t => (Except.ok (f t), w)) h

/-- A reading whose failure is a result like others. -/
theorem IsReading.lift_run {ε' : Type} {x : ExceptT ε (StateM World) α} (hx : IsReading x) :
    IsReading (liftM x.run : ExceptT ε' (StateM World) (Except ε α)) :=
  fun w w' h => congrArg (fun r : Except ε α × World => (Except.ok r.1, r.2)) (hx w w' h)

/-- A step that has been made already. -/
theorem isReading_liftExcept (r : Except ε α) :
    IsReading (liftM r : ExceptT ε (StateM World) α) :=
  fun _ _ _ => rfl

/-! ## Steps put together -/

/-- Two steps, one after the other. -/
theorem perform_bind (w : World) (x : ExceptT ε (StateM World) α)
    (f : α → ExceptT ε (StateM World) β) :
    w.perform (x >>= f) = match w.perform x with
      | (.ok a, w') => w'.perform (f a)
      | (.error e, w') => (.error e, w') := by
  show (ExceptT.bindCont f (w.perform x).1).run (w.perform x).2 = _
  rcases w.perform x with ⟨_ | a, w'⟩ <;> rfl

/-- What goes wrong in a step goes wrong as a whole. -/
theorem answer_bind_of_error {x : ExceptT ε (StateM World) α} {e : ε} (h : w.answer x = .error e)
    (f : α → ExceptT ε (StateM World) β) : w.answer (x >>= f) = .error e := by
  rw [answer, perform_bind]
  rw [answer] at h
  split
  · next heq =>
    rw [heq] at h
    cases h
  · next heq =>
    rw [heq] at h
    exact congrArg Except.error (Except.error.inj h)

/-- What two steps come to is what the second comes to, in the world the first one leaves. -/
theorem exists_answer_of_bind {x : ExceptT ε (StateM World) α} {f : α → ExceptT ε (StateM World) β}
    {b : β} (h : w.answer (x >>= f) = .ok b) : ∃ a, ∃ w' : World, w'.answer (f a) = .ok b := by
  rw [answer, perform_bind] at h
  rcases hx : w.perform x with ⟨e | a, w'⟩
  · rw [hx] at h
    cases h
  · rw [hx] at h
    exact ⟨a, w', h⟩

/-- What comes after a reading happens in the same world. -/
theorem IsReading.perform_bind {x : ExceptT ε (StateM World) α} (hx : IsReading x) (w : World)
    (f : α → ExceptT ε (StateM World) β) :
    w.perform (x >>= f) = match w.answer x with
      | .ok a => w.perform (f a)
      | .error e => (.error e, w) := by
  rw [World.perform_bind, hx.perform_eq w]
  cases w.answer x <;> rfl

theorem IsReading.answer_bind {x : ExceptT ε (StateM World) α} (hx : IsReading x) (w : World)
    (f : α → ExceptT ε (StateM World) β) :
    w.answer (x >>= f) = w.answer x >>= fun a => w.answer (f a) := by
  rw [answer, hx.perform_bind]
  cases w.answer x <;> rfl

theorem IsReading.bind {x : ExceptT ε (StateM World) α} (hx : IsReading x)
    {f : α → ExceptT ε (StateM World) β} (hf : ∀ a, IsReading (f a)) : IsReading (x >>= f) := by
  intro w w' h
  rw [hx.answer_bind, hx.perform_bind, hx.answer_eq h]
  cases w'.answer x with
  | error e => rfl
  | ok a => exact hf a w w' h

theorem IsReading.mapM {xs : List α} {f : α → ExceptT ε (StateM World) β}
    (hf : ∀ a, IsReading (f a)) : IsReading (xs.mapM f) := by
  induction xs with
  | nil => exact isReading_pure []
  | cons x xs ih =>
    rw [List.mapM_cons]
    exact (hf x).bind fun b => ih.bind fun bs => isReading_pure (b :: bs)

theorem answer_mapM {f : α → ExceptT ε (StateM World) β} (hf : ∀ a, IsReading (f a))
    (w : World) (xs : List α) : w.answer (xs.mapM f) = xs.mapM fun a => w.answer (f a) := by
  induction xs with
  | nil => rfl
  | cons x xs ih =>
    rw [List.mapM_cons, List.mapM_cons, (hf x).answer_bind]
    refine congrArg _ (funext fun b => ?_)
    rw [(IsReading.mapM hf).answer_bind, ih]
    rfl

end World

end IntentContract
