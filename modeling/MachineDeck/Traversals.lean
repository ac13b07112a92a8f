import Mathlib.Data.List.Forall2

/-!
# Lists mapped by a program that may raise

* `bind_ok` — the steps of a program that returned have returned;
* `mapM_ok`, `mapM_eq`, `mapM_isOk` — every element has been mapped, and when all of them are;
* `map_of_mapM`, `mapM_of_mapM`, `mem_of_mapM`, `image_of_mapM`, `isOk_of_mapM` — what the elements
  have become;
* `isSome_of_mapM`, `mapM_eq_some`, `length_mapM` — the same of a program that may have no result;
* `forM_ok`, `foldlM_error` — loops that pass, and loops that cannot.
-/

namespace Traversals

/-- The steps of a program that returned have returned. -/
theorem bind_ok {ε α β : Type} {m : Except ε α} {k : α → Except ε β} {b : β}
    (h : (m >>= k) = .ok b) : ∃ a, m = .ok a ∧ k a = .ok b := by
  cases m with
  | error e => cases h
  | ok a => exact ⟨a, rfl, h⟩

/-- Every element of a list that was mapped has been mapped. -/
theorem mapM_ok {ε α β : Type} {f : α → Except ε β} {xs : List α} {ys : List β}
    (h : xs.mapM f = .ok ys) : List.Forall₂ (fun x y => f x = .ok y) xs ys := by
  induction xs generalizing ys with
  | nil =>
      rw [List.mapM_nil] at h
      cases h
      exact List.Forall₂.nil
  | cons x xs ih =>
      rw [List.mapM_cons] at h
      obtain ⟨y, hy, h⟩ := bind_ok h
      obtain ⟨ys', hys', h⟩ := bind_ok h
      cases h
      exact List.Forall₂.cons hy (ih hys')

theorem map_of_mapM {ε α β γ : Type} {f : α → Except ε β} {g : β → γ} {k : α → γ}
    {xs : List α} {ys : List β} (h : xs.mapM f = .ok ys)
    (hf : ∀ x y, f x = .ok y → g y = k x) : ys.map g = xs.map k := by
  have hall := mapM_ok h
  clear h
  induction hall with
  | nil => rfl
  | cons hx _ ih => rw [List.map_cons, List.map_cons, hf _ _ hx, ih]

/-- What was mapped is mapped back. -/
theorem mapM_of_mapM {ε α β : Type} {f : α → Except ε β} {g : β → Option α} {xs : List α}
    {ys : List β} (h : xs.mapM f = .ok ys) (hf : ∀ x ∈ xs, ∀ y, f x = .ok y → g y = some x) :
    ys.mapM g = some xs := by
  have hall := mapM_ok h
  clear h
  induction hall with
  | nil => rfl
  | cons hx _ ih =>
      have hrest := ih fun x hmem => hf x (List.mem_cons_of_mem _ hmem)
      rw [List.mapM_cons, hf _ List.mem_cons_self _ hx, hrest]
      rfl

theorem mem_of_mapM {ε α β : Type} {f : α → Except ε β} {xs : List α} {ys : List β}
    (h : xs.mapM f = .ok ys) {y : β} (hy : y ∈ ys) : ∃ x ∈ xs, f x = .ok y := by
  have hall := mapM_ok h
  clear h
  induction hall with
  | nil => cases hy
  | cons hx _ ih =>
      rcases List.mem_cons.mp hy with rfl | hy
      · exact ⟨_, List.mem_cons_self, hx⟩
      · obtain ⟨x, hmem, hfx⟩ := ih hy
        exact ⟨x, List.mem_cons_of_mem _ hmem, hfx⟩

theorem image_of_mapM {ε α β : Type} {f : α → Except ε β} {xs : List α} {ys : List β}
    (h : xs.mapM f = .ok ys) {x : α} (hx : x ∈ xs) : ∃ y ∈ ys, f x = .ok y := by
  have hall := mapM_ok h
  clear h
  induction hall with
  | nil => cases hx
  | cons hy _ ih =>
      rcases List.mem_cons.mp hx with rfl | hx
      · exact ⟨_, List.mem_cons_self, hy⟩
      · obtain ⟨y, hmem, hfx⟩ := ih hx
        exact ⟨y, List.mem_cons_of_mem _ hmem, hfx⟩

theorem isOk_of_mapM {ε α β : Type} {f : α → Except ε β} {xs : List α} {ys : List β}
    (h : xs.mapM f = .ok ys) {x : α} (hx : x ∈ xs) : ∃ y, f x = .ok y := by
  obtain ⟨y, -, hy⟩ := image_of_mapM h hx
  exact ⟨y, hy⟩

theorem mapM_eq {ε α β : Type} {f : α → Except ε β} {g : α → β} {xs : List α}
    (h : ∀ x ∈ xs, f x = .ok (g x)) : xs.mapM f = .ok (xs.map g) := by
  induction xs with
  | nil => rfl
  | cons x xs ih =>
      rw [List.mapM_cons, h x List.mem_cons_self, ih fun y hy => h y (List.mem_cons_of_mem x hy)]
      rfl

theorem mapM_isOk {ε α β : Type} {f : α → Except ε β} {xs : List α}
    (h : ∀ x ∈ xs, ∃ y, f x = .ok y) : ∃ ys, xs.mapM f = .ok ys := by
  induction xs with
  | nil => exact ⟨[], rfl⟩
  | cons x xs ih =>
      obtain ⟨y, hy⟩ := h x List.mem_cons_self
      obtain ⟨ys, hys⟩ := ih fun x' hx' => h x' (List.mem_cons_of_mem _ hx')
      refine ⟨y :: ys, ?_⟩
      rw [List.mapM_cons, hy, hys]
      rfl

/-! ### Mapping with options -/

section Options

variable {α β : Type} {f : α → Option β} {l : List α} {read : List β}

theorem isSome_of_mapM (h : l.mapM f = some read) {a : α} (ha : a ∈ l) : (f a).isSome = true := by
  induction l generalizing read with
  | nil => cases ha
  | cons x l ih =>
      rw [List.mapM_cons] at h
      obtain ⟨y, hy, h⟩ := Option.bind_eq_some_iff.mp h
      obtain ⟨tail, htail, -⟩ := Option.bind_eq_some_iff.mp h
      rcases List.mem_cons.mp ha with rfl | ha
      · rw [hy]
        rfl
      · exact ih htail ha

theorem mapM_eq_some {g : α → β} (h : ∀ a ∈ l, f a = some (g a)) : l.mapM f = some (l.map g) := by
  induction l with
  | nil => rfl
  | cons x l ih =>
      rw [List.mapM_cons, h x List.mem_cons_self, ih fun a ha => h a (List.mem_cons_of_mem x ha)]
      rfl

theorem length_mapM (h : l.mapM f = some read) : read.length = l.length := by
  induction l generalizing read with
  | nil =>
      cases h
      rfl
  | cons x l ih =>
      rw [List.mapM_cons] at h
      obtain ⟨y, -, h⟩ := Option.bind_eq_some_iff.mp h
      obtain ⟨tail, htail, h⟩ := Option.bind_eq_some_iff.mp h
      cases h
      rw [List.length_cons, List.length_cons, ih htail]

end Options

/-! ### Loops -/

/-- A loop that only checks raises nothing if and only if every element passes. -/
theorem forM_ok {ε α : Type} {f : α → Except ε Unit} {xs : List α} :
    xs.forM f = .ok () ↔ ∀ x ∈ xs, f x = .ok () := by
  induction xs with
  | nil => exact ⟨fun _ x hx => absurd hx List.not_mem_nil, fun _ => rfl⟩
  | cons x xs ih =>
      rw [List.forall_mem_cons, ← ih]
      constructor
      · intro h
        obtain ⟨⟨⟩, hx, hxs⟩ := bind_ok (show (f x >>= fun _ => xs.forM f) = .ok () from h)
        exact ⟨hx, hxs⟩
      · rintro ⟨hx, hxs⟩
        show (f x >>= fun _ => xs.forM f) = .ok ()
        rw [hx]
        exact hxs

/-- A loop with an element that it cannot pass raises. -/
theorem foldlM_error {ε α β : Type} {step : β → α → Except ε β} {xs : List α} {x : α}
    (hx : x ∈ xs) (hstep : ∀ b, ∃ e, step b x = .error e) (b : β) :
    ∃ e, xs.foldlM step b = .error e := by
  induction xs generalizing b with
  | nil => cases hx
  | cons y xs ih =>
      rw [List.foldlM_cons]
      rcases List.mem_cons.mp hx with rfl | hx
      · obtain ⟨e, he⟩ := hstep b
        exact ⟨e, by rw [he]; rfl⟩
      · cases step b y with
        | error e => exact ⟨e, rfl⟩
        | ok next => exact ih hx next

end Traversals
