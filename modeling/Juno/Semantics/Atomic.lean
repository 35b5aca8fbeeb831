import Mathlib.Data.List.Basic

/-! Atomic transactions and their executions.

A transaction either commits the state it computed or fails and leaves the
state it started from. An execution is the left fold of its transactions.
Invariants preserved by one committed transaction hold after every execution,
and a projection of the final state that differs from the initial one was last
written by one identified transaction.
-/

set_option autoImplicit false

namespace Atomic

variable {σ α ε β : Type}

/-- Commit the post-state of a successful transaction; keep the pre-state on failure. -/
def commit (step : σ → α → Except ε σ) (s : σ) (a : α) : σ :=
  match step s a with
  | .ok next => next
  | .error _ => s

def execute (step : σ → α → Except ε σ) (s : σ) (actions : List α) : σ :=
  actions.foldl (commit step) s

def committed (step : σ → α → Except ε σ) : σ → List α → List α
  | _, [] => []
  | s, a :: actions =>
    match step s a with
    | .ok next => a :: committed step next actions
    | .error _ => committed step s actions

def Reachable (step : σ → α → Except ε σ) (start s : σ) : Prop :=
  ∃ actions, execute step start actions = s

def Preserves (step : σ → α → Except ε σ) (inv : σ → Prop) : Prop :=
  ∀ s a next, inv s → step s a = .ok next → inv next

theorem bind_eq_ok {γ : Type} {x : Except ε β} {f : β → Except ε γ} {c : γ} :
    x >>= f = .ok c ↔ ∃ b, x = .ok b ∧ f b = .ok c := by
  cases x with
  | error e => simp [bind, Except.bind]
  | ok b => simp [bind, Except.bind]

@[simp] theorem throw_bind_ne_ok {γ : Type} {e : ε} {f : β → Except ε γ} {c : γ} :
    (throw e >>= f) ≠ .ok c := by
  simp [throw, throwThe, MonadExceptOf.throw, bind, Except.bind]

@[simp] theorem throw_ne_ok {e : ε} {b : β} : (throw e : Except ε β) ≠ .ok b := by
  simp [throw, throwThe, MonadExceptOf.throw]

@[simp] theorem map_throw_ne_ok {γ : Type} {f : β → γ} {e : ε} {c : γ} :
    (f <$> (throw e : Except ε β)) ≠ .ok c := by
  simp [throw, throwThe, MonadExceptOf.throw, Functor.map, Except.map]

@[simp] theorem pure_eq_ok {a b : β} : (pure a : Except ε β) = .ok b ↔ a = b := by
  simp [pure, Except.pure]

theorem foldlM_track (observe : σ → β) (update : β → α → β) (f : σ → α → Except ε σ) (xs : List α)
    {start last : σ} (effect : ∀ s x next, x ∈ xs → f s x = .ok next → observe next = update (observe s) x)
    (accepted : xs.foldlM f start = .ok last) : observe last = xs.foldl update (observe start) := by
  induction xs generalizing start with
  | nil =>
    cases accepted
    rfl
  | cons x rest ih =>
    rw [List.foldlM_cons, bind_eq_ok] at accepted
    obtain ⟨middle, first, tail⟩ := accepted
    rw [List.foldl_cons, ← effect start x middle List.mem_cons_self first]
    exact ih (fun s y next mem => effect s y next (List.mem_cons_of_mem x mem)) tail

theorem foldlM_accumulate {γ : Type} [Add γ] [Zero γ] (R : σ → σ → γ → Prop) (label : α → γ)
    (f : σ → α → Except ε σ) (xs : List α) (refl : ∀ s, R s s 0)
    (trans : ∀ {s t u a b}, R s t a → R t u b → R s u (a + b)) {start last : σ}
    (effect : ∀ s x next, x ∈ xs → f s x = .ok next → R s next (label x))
    (accepted : xs.foldlM f start = .ok last) : R start last (xs.map label).sum := by
  induction xs generalizing start with
  | nil =>
    cases accepted
    exact refl _
  | cons x rest ih =>
    rw [List.foldlM_cons, bind_eq_ok] at accepted
    obtain ⟨middle, first, tail⟩ := accepted
    rw [List.map_cons, List.sum_cons]
    exact trans (effect start x middle List.mem_cons_self first)
      (ih (fun s y next mem => effect s y next (List.mem_cons_of_mem x mem)) tail)

theorem foldlM_observe (observe : σ → β) (f : σ → α → Except ε σ) (xs : List α) {start last : σ}
    (effect : ∀ s x next, f s x = .ok next → observe next = observe s)
    (accepted : xs.foldlM f start = .ok last) : observe last = observe start := by
  have tracked := foldlM_track observe (fun b _ => b) f xs (fun s x next _ step => effect s x next step) accepted
  rwa [List.foldl_fixed] at tracked

theorem foldlM_preserves (inv : σ → Prop) (f : σ → α → Except ε σ) (xs : List α) {start last : σ}
    (keeps : ∀ s x next, x ∈ xs → inv s → f s x = .ok next → inv next) (holds : inv start)
    (accepted : xs.foldlM f start = .ok last) : inv last := by
  induction xs generalizing start with
  | nil =>
    cases accepted
    exact holds
  | cons x rest ih =>
    rw [List.foldlM_cons, bind_eq_ok] at accepted
    obtain ⟨middle, first, tail⟩ := accepted
    exact ih (fun s y next mem => keeps s y next (List.mem_cons_of_mem x mem))
      (keeps start x middle List.mem_cons_self holds first) tail

theorem foldlM_filter_of_keeps (f : σ → α → Except ε σ) (keeps : α → Bool) (xs : List α) {start last : σ}
    (kept : ∀ s x next, keeps x = true → f s x = .ok next → next = s)
    (accepted : xs.foldlM f start = .ok last) : (xs.filter (fun x => !keeps x)).foldlM f start = .ok last := by
  induction xs generalizing start with
  | nil => exact accepted
  | cons x rest ih =>
    rw [List.foldlM_cons, bind_eq_ok] at accepted
    obtain ⟨next, first, tail⟩ := accepted
    cases keep : keeps x with
    | true =>
      rw [List.filter_cons_of_neg (by simp [keep])]
      rw [kept start x next keep first] at tail
      exact ih tail
    | false =>
      rw [List.filter_cons_of_pos (by simp [keep]), List.foldlM_cons, bind_eq_ok]
      exact ⟨next, first, ih tail⟩

theorem foldlM_exists_ok (f : σ → α → Except ε σ) (xs : List α) (start : σ)
    (total : ∀ s x, x ∈ xs → ∃ next, f s x = .ok next) : ∃ last, xs.foldlM f start = .ok last := by
  induction xs generalizing start with
  | nil => exact ⟨start, rfl⟩
  | cons x rest ih =>
    obtain ⟨middle, first⟩ := total start x List.mem_cons_self
    obtain ⟨last, tail⟩ := ih middle (fun s y mem => total s y (List.mem_cons_of_mem x mem))
    exact ⟨last, by rw [List.foldlM_cons, first]; exact tail⟩

theorem mapM_exists_ok (f : α → Except ε β) (xs : List α) (total : ∀ x ∈ xs, ∃ y, f x = .ok y) :
    ∃ ys, xs.mapM f = .ok ys ∧ List.Forall₂ (fun x y => f x = .ok y) xs ys := by
  induction xs with
  | nil => exact ⟨[], rfl, .nil⟩
  | cons x rest ih =>
    obtain ⟨y, first⟩ := total x List.mem_cons_self
    obtain ⟨ys, tail, related⟩ := ih fun x' mem => total x' (List.mem_cons_of_mem x mem)
    refine ⟨y :: ys, ?_, .cons first related⟩
    simp [List.mapM_cons, first, tail, bind, Except.bind, pure, Except.pure]

theorem forM_eq_ok (g : α → Except ε PUnit) (xs : List α) :
    xs.forM g = .ok ⟨⟩ ↔ ∀ x ∈ xs, g x = .ok ⟨⟩ := by
  induction xs with
  | nil => simp [List.forM, pure, Except.pure]
  | cons x rest ih =>
    rw [List.forall_mem_cons, ← ih]
    cases head : g x with
    | error e => simp [List.forM, head, bind, Except.bind]
    | ok u => simp [List.forM, head, bind, Except.bind]

/-- A validation loop that checks each element and refuses a key it has seen before: from the
keys `seen`, it passes exactly when every element passes its own check and the keys repeat
neither each other nor one of `seen`. -/
theorem foldlM_seen_ok_iff {κ : Type} (f : List κ → α → Except ε (List κ)) (key : α → κ) (P : α → Prop)
    (step : ∀ seen x r, f seen x = .ok r ↔ P x ∧ key x ∉ seen ∧ r = key x :: seen) (xs : List α)
    (seen : List κ) :
    (∃ r, xs.foldlM f seen = .ok r) ↔ (∀ x ∈ xs, P x) ∧ (xs.map key).Nodup ∧ ∀ x ∈ xs, key x ∉ seen := by
  induction xs generalizing seen with
  | nil => simp [pure, Except.pure]
  | cons x rest ih =>
    simp only [List.foldlM_cons, List.forall_mem_cons, List.map_cons, List.nodup_cons, List.mem_map]
    constructor
    · rintro ⟨r, h⟩
      obtain ⟨next, first, tail⟩ := bind_eq_ok.mp h
      obtain ⟨valid, fresh, rfl⟩ := (step seen x next).mp first
      obtain ⟨valids, distinct, unseen⟩ := (ih (key x :: seen)).mp ⟨r, tail⟩
      refine ⟨⟨valid, valids⟩, ⟨?_, distinct⟩, fresh, fun y mem old => unseen y mem (List.mem_cons_of_mem _ old)⟩
      -- a later key equal to this one would have been seen
      rintro ⟨y, mem, same⟩
      exact unseen y mem (by rw [same]; exact List.mem_cons_self)
    · rintro ⟨⟨valid, valids⟩, ⟨later, distinct⟩, fresh, unseen⟩
      have first := (step seen x (key x :: seen)).mpr ⟨valid, fresh, rfl⟩
      have unseenAfter : ∀ y ∈ rest, key y ∉ key x :: seen := by
        intro y mem seenY
        rcases List.mem_cons.mp seenY with same | old
        · exact later ⟨y, mem, same⟩
        · exact unseen y mem old
      obtain ⟨r, tail⟩ := (ih (key x :: seen)).mpr ⟨valids, distinct, unseenAfter⟩
      exact ⟨r, by rw [first]; exact tail⟩

section
variable {step : σ → α → Except ε σ}

@[simp] theorem commit_of_ok {s next : σ} {a : α} (h : step s a = .ok next) :
    commit step s a = next := by
  simp [commit, h]

@[simp] theorem commit_of_error {s : σ} {a : α} {e : ε} (h : step s a = .error e) :
    commit step s a = s := by
  simp [commit, h]

theorem commit_cases (s : σ) (a : α) :
    commit step s a = s ∨ step s a = .ok (commit step s a) := by
  cases h : step s a with
  | error e => exact .inl (commit_of_error h)
  | ok next => exact .inr (by rw [commit_of_ok h])

@[simp] theorem execute_nil (s : σ) : execute step s [] = s := rfl

@[simp] theorem execute_cons (s : σ) (a : α) (actions : List α) :
    execute step s (a :: actions) = execute step (commit step s a) actions := rfl

theorem execute_append (s : σ) (first second : List α) :
    execute step s (first ++ second) = execute step (execute step s first) second := by
  simp [execute, List.foldl_append]

theorem execute_concat (s : σ) (actions : List α) (a : α) :
    execute step s (actions ++ [a]) = commit step (execute step s actions) a := by
  rw [execute_append]
  rfl

theorem Reachable.refl (s : σ) : Reachable step s s := ⟨[], rfl⟩

theorem Reachable.commit {start s : σ} (h : Reachable step start s) (a : α) :
    Reachable step start (commit step s a) := by
  obtain ⟨actions, rfl⟩ := h
  exact ⟨actions ++ [a], execute_concat start actions a⟩

theorem Reachable.trans {start middle s : σ} (first : Reachable step start middle)
    (second : Reachable step middle s) : Reachable step start s := by
  obtain ⟨xs, rfl⟩ := first
  obtain ⟨ys, rfl⟩ := second
  exact ⟨xs ++ ys, execute_append start xs ys⟩

theorem execute_preserves {s : σ} (inv : σ → Prop) (actions : List α)
    (keeps : ∀ t a next, a ∈ actions → inv t → step t a = .ok next → inv next) (holds : inv s) :
    inv (Atomic.execute step s actions) := by
  induction actions generalizing s with
  | nil => exact holds
  | cons a actions ih =>
    rw [execute_cons]
    apply ih (fun t b next mem => keeps t b next (List.mem_cons_of_mem a mem))
    rcases @commit_cases σ α ε step s a with same | committed
    · rw [same]; exact holds
    · exact keeps s a _ List.mem_cons_self holds committed

variable {inv : σ → Prop}

theorem Preserves.commit (preserves : Preserves step inv) {s : σ} (hs : inv s) (a : α) :
    inv (Atomic.commit step s a) := by
  rcases @commit_cases σ α ε step s a with same | committed
  · rw [same]; exact hs
  · exact preserves s a _ hs committed

theorem Preserves.execute (preserves : Preserves step inv) {s : σ} (hs : inv s)
    (actions : List α) : inv (Atomic.execute step s actions) := by
  induction actions generalizing s with
  | nil => exact hs
  | cons a rest ih => exact ih (preserves.commit hs a)

theorem Preserves.reachable (preserves : Preserves step inv) {start s : σ} (hs : inv start)
    (reach : Reachable step start s) : inv s := by
  obtain ⟨actions, rfl⟩ := reach
  exact preserves.execute hs actions

/-- A relation between states that every successful transaction establishes with its own
label, and that composes by adding labels, relates the start of an execution to its end by
the sum of the labels of the transactions that committed. -/
theorem execute_accumulate {β : Type} [Add β] [Zero β] (R : σ → σ → β → Prop) (label : α → β)
    (refl : ∀ s, R s s 0) (trans : ∀ {s t u a b}, R s t a → R t u b → R s u (a + b))
    (effect : ∀ s a next, step s a = .ok next → R s next (label a)) (s : σ) (actions : List α) :
    R s (Atomic.execute step s actions) ((committed step s actions).map label).sum := by
  induction actions generalizing s with
  | nil => exact refl s
  | cons a rest ih =>
    rw [execute_cons, committed]
    cases h : step s a with
    | error e =>
      rw [commit_of_error h]
      exact ih s
    | ok next =>
      rw [commit_of_ok h, List.map_cons, List.sum_cons]
      exact trans (effect s a next h) (ih next)

/-- The last transaction that changed `view`: it committed a change, and the final
value of `view` is the one it wrote. -/
theorem execute_last_change (view : σ → β) (s : σ) (actions : List α)
    (changed : view (Atomic.execute step s actions) ≠ view s) :
    ∃ before a after, actions = before ++ a :: after ∧
      view (Atomic.commit step (Atomic.execute step s before) a) ≠
        view (Atomic.execute step s before) ∧
      view (Atomic.execute step s actions) =
        view (Atomic.commit step (Atomic.execute step s before) a) := by
  induction actions generalizing s with
  | nil => exact absurd rfl changed
  | cons a rest ih =>
    by_cases later : view (Atomic.execute step (Atomic.commit step s a) rest) =
        view (Atomic.commit step s a)
    · -- Nothing after `a` changed the view, so `a` is the last change.
      refine ⟨[], a, rest, rfl, ?_, later⟩
      rw [execute_nil, ← later]
      exact changed
    · obtain ⟨before, b, after, split, change, final⟩ := ih (Atomic.commit step s a) later
      refine ⟨a :: before, b, after, by rw [split]; rfl, change, ?_⟩
      simpa only [execute_cons, split] using final

end

end Atomic
