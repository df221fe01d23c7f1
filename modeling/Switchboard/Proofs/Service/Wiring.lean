/-
  Wirings: which handlers a service has been given, in order.

  A `Wiring` is the list of the registrations of a service.  A later registration replaces an
  earlier one of the same name (`Wiring.last?`), and `slot?_registry` says that the registry of a
  wiring holds exactly these.  `Wiring.recorded` puts a note of every run of a handler next to the
  world, so that "runs exactly once" and "does not run" are statements about a list of notes.
-/
import Mathlib
import Switchboard.Proofs.Named
import Switchboard.Service.Basic

namespace Switchboard

/-! ## Registrations -/

variable {c : Contract} {ε σ τ : Type}

/-- A handler for an operation of a contract. -/
structure Registration (c : Contract) (ε σ : Type) where
  op : Operation c
  handler : Handler ε σ op.Request op.Response

namespace Registration

/-- What a registry keeps of a registration. -/
def slot (g : Registration c ε σ) : Slot ε σ := g.op.slot g.handler

/-- The handler answers or fails, whatever it is given. -/
def NeverPanics (g : Registration c ε σ) : Prop :=
  ∀ surroundings context request world panic,
    (g.handler surroundings context request world).result ≠ .panicked panic

/-- Whatever the handler is given, it leaves a view of the world as it is. -/
def Keeps {α : Type} (view : σ → α) (g : Registration c ε σ) : Prop :=
  ∀ surroundings context request world,
    view (g.handler surroundings context request world).state = view world

/-- The same handler, which leaves a note behind the notes in the world each time it runs. -/
def recorded (note : (g : Registration c ε σ) → CallContext → g.op.Request → τ)
    (g : Registration c ε σ) : Registration c ε (σ × List τ) where
  op := g.op
  handler surroundings context request world :=
    let ran := g.handler surroundings context request world.1
    ⟨ran.result, (ran.state, world.2 ++ [note g context request]), ran.trace⟩

end Registration

/-! ## Wirings -/

/-- The registrations of a service in the order they were made. -/
abbrev Wiring (c : Contract) (ε σ : Type) := List (Registration c ε σ)

namespace Wiring

/-- The registry that a wiring leaves behind. -/
def registry (w : Wiring c ε σ) : Registry ε σ :=
  w.foldl (fun r g => r.register g.op g.handler) .empty

/-- The last registration under a name. -/
def last? (w : Wiring c ε σ) (name : String) : Option (Registration c ε σ) :=
  w.reverse.find? fun g => g.op.name == name

/-- The same wiring with recorded handlers. -/
def recorded (note : (g : Registration c ε σ) → CallContext → g.op.Request → τ)
    (w : Wiring c ε σ) : Wiring c ε (σ × List τ) := w.map (·.recorded note)

/-- A service with a wiring, in any state of its call ids. -/
def service (w : Wiring c ε σ) (config : DispatchConfig) (lastCallId : Nat) : Service c ε σ :=
  ⟨config, w.registry, lastCallId⟩

theorem last?_concat (w : Wiring c ε σ) (g : Registration c ε σ) (name : String) :
    Wiring.last? (w ++ [g]) name = if name = g.op.name then some g else w.last? name := by
  by_cases h : name = g.op.name
  · subst h
    simp [last?]
  · have h' : (g.op.name == name) = false := by simpa using Ne.symm h
    simp [last?, h, h']

/-- Later registrations come first. -/
theorem last?_append (w v : Wiring c ε σ) (name : String) :
    Wiring.last? (w ++ v) name = (v.last? name).or (w.last? name) := by
  rw [last?, List.reverse_append, List.find?_append]
  rfl

theorem registry_concat (w : Wiring c ε σ) (g : Registration c ε σ) :
    Wiring.registry (w ++ [g]) = w.registry.register g.op g.handler := by
  simp [registry]

/-- The registry of a wiring holds the last registration of every name, and nothing else. -/
theorem slot?_registry (w : Wiring c ε σ) (name : String) :
    w.registry.slot? name = (w.last? name).map Registration.slot := by
  induction w using List.reverseRecOn with
  | nil => rfl
  | append_singleton w g ih =>
    rw [registry_concat, last?_concat]
    show (Named.put g.op.name g.slot (registry w)).first? name = _
    rw [Named.first?_put]
    by_cases h : name = g.op.name
    · rw [if_pos h, if_pos h]
      rfl
    · rw [if_neg h, if_neg h]
      exact ih

theorem mem_of_last? {w : Wiring c ε σ} {name : String} {g : Registration c ε σ}
    (h : w.last? name = some g) : g ∈ w :=
  List.mem_reverse.1 (List.mem_of_find?_eq_some h)

theorem name_of_last? {w : Wiring c ε σ} {name : String} {g : Registration c ε σ}
    (h : w.last? name = some g) : g.op.name = name := by
  simpa using List.find?_some h

/-- Recording a wiring does not change which registration is the last of a name. -/
theorem last?_recorded (note : (g : Registration c ε σ) → CallContext → g.op.Request → τ)
    (w : Wiring c ε σ) (name : String) :
    (w.recorded note).last? name = (w.last? name).map (·.recorded note) := by
  simp only [last?, recorded, ← List.map_reverse, List.find?_map]
  rfl

end Wiring

/-! ## Declared names -/

/-- A contract declares exactly the names it lists, each under itself. -/
theorem Contract.declares_eq (c : Contract) (name : String) :
    c.declares name = if name ∈ c.operations then some name else none := by
  by_cases h : name ∈ c.operations
  · rw [if_pos h, declares]
    cases hf : c.operations.find? (· == name) with
    | none => exact absurd (List.find?_eq_none.1 hf name h) (by simp)
    | some other =>
      have he : (other == name) = true := List.find?_some (p := fun o => o == name) hf
      rw [eq_of_beq he]
  · rw [if_neg h, declares, List.find?_eq_none]
    intro other hother heq
    exact h (eq_of_beq heq ▸ hother)

/-- Every registered name is a declared one. -/
theorem Wiring.mem_operations_of_last? {w : Wiring c ε σ} {name : String} {g : Registration c ε σ}
    (h : w.last? name = some g) : name ∈ c.operations :=
  Wiring.name_of_last? h ▸ g.op.declared

end Switchboard
