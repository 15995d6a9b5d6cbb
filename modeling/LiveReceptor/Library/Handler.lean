import Mathlib.Data.List.Basic

namespace LiveReceptor

-- How a handler stops before its end: it turns the input down, or it reads what
-- is not there.
inductive Halt
  | rejected
  | fault
  deriving DecidableEq, Repr

-- Code that fills in a record it never reads. What it has written before it
-- stops stays written.
structure Handler (σ α : Type) where
  outcome : Except Halt α
  writes : σ → σ

namespace Handler

variable {σ α β : Type}

def bind (first : Handler σ α) (next : α → Handler σ β) : Handler σ β :=
  match first.outcome with
  | .ok value => ⟨(next value).outcome, (next value).writes ∘ first.writes⟩
  | .error halt => ⟨.error halt, first.writes⟩

instance : Monad (Handler σ) where
  pure value := ⟨.ok value, id⟩
  bind := bind

def write (change : σ → σ) : Handler σ Unit := ⟨.ok (), change⟩

def check (condition : Bool) : Handler σ Unit := ⟨if condition then .ok () else .error .rejected, id⟩

-- A read that is defined on some values only.
def read (value : Option α) : Handler σ α := ⟨value.elim (.error .fault) .ok, id⟩

def when (condition : Bool) (body : Handler σ Unit) : Handler σ Unit :=
  if condition then body else pure ()

def NoFault (handler : Handler σ α) : Prop := handler.outcome ≠ .error .fault

-- A part of the record that it does not touch.
def Keeps {γ : Type} (field : σ → γ) (handler : Handler σ α) : Prop :=
  ∀ s, field (handler.writes s) = field s

def Returns (handler : Handler σ α) (value : α) : Prop := handler.outcome = .ok value

-- When it gets to its end, this holds of the record that it leaves.
def Leaves (post : σ → Prop) (handler : Handler σ α) (s : σ) : Prop :=
  ∀ result, handler.Returns result → post (handler.writes s)

-- A part of the record that can be read and put back.
structure Part (σ γ : Type) where
  get : σ → γ
  put : σ → γ → σ
  get_put : ∀ s part, get (put s part) = part
  put_get : ∀ s, put s (get s) = s

-- It changes the part alone, by nothing but what the part was: it does not matter
-- what the rest of the record is.
def Within {γ : Type} (part : Part σ γ) (handler : Handler σ α) : Prop :=
  ∀ s t, handler.writes (part.put s (part.get t)) = part.put s (part.get (handler.writes t))

-- It holds of code that writes nothing, and of code put together from code of which
-- it holds.
structure Closed (holds : ∀ {α : Type}, Handler σ α → Prop) : Prop where
  bind : ∀ {α β : Type} {first : Handler σ α} {next : α → Handler σ β}, holds first →
    (∀ value, holds (next value)) → holds (first >>= next)
  quiet : ∀ {α : Type} {handler : Handler σ α}, handler.writes = id → holds handler

section Rules

variable {handler : Handler σ α} {next : α → Handler σ β} {value other : α} {result : β}
  {go : Unit → Handler σ β} {change : σ → σ} {condition : Bool} {optional : Option α}
  {body : Handler σ Unit} {done : Unit}

@[simp] theorem noFault_pure : NoFault (pure value : Handler σ α) := by
  intro h
  cases h

@[simp] theorem returns_pure : Returns (pure value : Handler σ α) other ↔ value = other := by
  constructor
  · exact Except.ok.inj
  · exact congrArg Except.ok

theorem noFault_bind : (handler >>= next).NoFault ↔
    handler.NoFault ∧ ∀ value, handler.Returns value → (next value).NoFault := by
  change (bind handler next).outcome ≠ _ ↔ handler.outcome ≠ _ ∧ ∀ value, handler.outcome = _ → _
  rw [bind]
  cases handler.outcome with
  | ok value => simp [NoFault]
  | error halt => simp

theorem returns_bind : (handler >>= next).Returns result ↔
    ∃ value, handler.Returns value ∧ (next value).Returns result := by
  change (bind handler next).outcome = _ ↔ ∃ value, handler.outcome = _ ∧ _
  rw [bind]
  cases handler.outcome with
  | ok value => simp [Returns]
  | error halt => simp

@[simp] theorem noFault_write : (write change).NoFault := by
  intro h
  cases h

@[simp] theorem returns_write : (write change).Returns done := rfl

@[simp] theorem noFault_check : NoFault (check condition : Handler σ Unit) := by
  cases condition <;> simp [NoFault, check]

@[simp] theorem returns_check : Returns (check condition : Handler σ Unit) done ↔ condition = true := by
  cases condition <;> simp [Returns, check]

@[simp] theorem noFault_read : NoFault (read optional : Handler σ α) ↔ optional.isSome = true := by
  cases optional <;> simp [NoFault, read]

@[simp] theorem returns_read : Returns (read optional : Handler σ α) value ↔ optional = some value := by
  cases optional <;> simp [Returns, read]

@[simp] theorem noFault_when : (when condition body).NoFault ↔ condition = true → body.NoFault := by
  cases condition <;> simp [when]

@[simp] theorem returns_when :
    (when condition body).Returns done ↔ condition = true → body.Returns done := by
  cases condition <;> simp [when]

@[simp] theorem noFault_write_bind : (write change >>= go).NoFault ↔ (go ()).NoFault := by
  rw [noFault_bind]
  exact ⟨fun h => h.2 () rfl, fun h => ⟨noFault_write, fun _ _ => h⟩⟩

@[simp] theorem noFault_check_bind :
    (check condition >>= go).NoFault ↔ condition = true → (go ()).NoFault := by
  rw [noFault_bind]
  exact ⟨fun h hcondition => h.2 () (returns_check.mpr hcondition),
    fun h => ⟨noFault_check, fun _ hreturns => h (returns_check.mp hreturns)⟩⟩

@[simp] theorem noFault_when_bind : (when condition body >>= go).NoFault ↔
    (condition = true → body.NoFault) ∧ ((condition = true → body.Returns ()) → (go ()).NoFault) := by
  rw [noFault_bind, noFault_when]
  exact and_congr_right fun _ => ⟨fun h hreturns => h () (returns_when.mpr hreturns),
    fun h _ hreturns => h (returns_when.mp hreturns)⟩

theorem noFault_read_bind :
    (read optional >>= next).NoFault ↔ ∃ value, optional = some value ∧ (next value).NoFault := by
  cases optional <;> simp [noFault_bind]

@[simp] theorem returns_write_bind : (write change >>= go).Returns result ↔ (go ()).Returns result := by
  rw [returns_bind]
  exact ⟨fun ⟨_, _, h⟩ => h, fun h => ⟨(), rfl, h⟩⟩

@[simp] theorem returns_check_bind :
    (check condition >>= go).Returns result ↔ condition = true ∧ (go ()).Returns result := by
  rw [returns_bind]
  exact ⟨fun ⟨_, hcheck, h⟩ => ⟨returns_check.mp hcheck, h⟩,
    fun h => ⟨(), returns_check.mpr h.1, h.2⟩⟩

@[simp] theorem returns_when_bind : (when condition body >>= go).Returns result ↔
    (condition = true → body.Returns ()) ∧ (go ()).Returns result := by
  rw [returns_bind]
  exact ⟨fun ⟨_, hwhen, h⟩ => ⟨returns_when.mp hwhen, h⟩, fun h => ⟨(), returns_when.mpr h.1, h.2⟩⟩

-- Code that returns nothing but lets the rest go on.
theorem noFault_seq {body : Handler σ Unit} : (body >>= go).NoFault ↔
    body.NoFault ∧ (body.Returns () → (go ()).NoFault) := by
  rw [noFault_bind]
  exact and_congr_right fun _ => ⟨fun h => h (), fun h _ => h⟩

theorem returns_read_bind : (read optional >>= next).Returns result ↔
    ∃ value, optional = some value ∧ (next value).Returns result := by
  cases optional <;> simp [returns_bind]

end Rules

section Steps

variable {next : α → Handler σ β} {value : α} {go : Unit → Handler σ β} {condition : Bool}

-- A step that goes well and writes nothing.
@[simp] theorem read_some_bind : (read (some value) >>= next) = next value := rfl

theorem check_bind (h : condition = true) : (check condition >>= go) = go () := by
  subst h
  rfl

-- What follows a check that fails is not done.
theorem check_bind_of_not {go : Unit → Handler σ Unit} (h : ¬condition = true) :
    (check condition >>= go) = check false := by
  rw [Bool.not_eq_true] at h
  subst h
  rfl

@[simp] theorem pure_bind : ((pure value : Handler σ α) >>= next) = next value := rfl

end Steps

section Keeps

variable {γ : Type} {field : σ → γ} {first : Handler σ α} {next : α → Handler σ β}
  {go : Unit → Handler σ β} {change : σ → σ} {s : σ}

@[simp] theorem writes_write_bind : (write change >>= go).writes s = (go ()).writes (change s) := rfl

theorem keeps_bind (hfirst : first.Keeps field) (hnext : ∀ value, (next value).Keeps field) :
    (first >>= next).Keeps field := by
  intro s
  change field ((bind first next).writes s) = field s
  rw [bind]
  cases first.outcome with
  | ok value => exact (hnext value (first.writes s)).trans (hfirst s)
  | error halt => exact hfirst s

@[simp] theorem keeps_write : (write change).Keeps field ↔ ∀ s, field (change s) = field s := Iff.rfl

end Keeps

section Leaves

variable {post : σ → Prop} {s : σ} {first : Handler σ α} {next : α → Handler σ β} {found : α}
  {body : Handler σ Unit} {go : Unit → Handler σ β} {condition : Bool} {optional : Option α}

@[simp] theorem writes_check : (check condition : Handler σ Unit).writes s = s := rfl

theorem writes_bind_of_returns (h : first.Returns found) :
    (first >>= next).writes = (next found).writes ∘ first.writes := by
  have hok : first.outcome = .ok found := h
  show (bind first next).writes = _
  rw [bind, hok]

theorem leaves_bind : (first >>= next).Leaves post s ↔
    ∀ value, first.Returns value → (next value).Leaves post (first.writes s) := by
  constructor
  · intro h value hvalue result hresult
    have hpost := h result (returns_bind.mpr ⟨value, hvalue, hresult⟩)
    rwa [writes_bind_of_returns hvalue] at hpost
  · intro h result hresult
    obtain ⟨value, hvalue, hnext⟩ := returns_bind.mp hresult
    rw [writes_bind_of_returns hvalue]
    exact h value hvalue result hnext

theorem leaves_seq : (body >>= go).Leaves post s ↔
    (body.Returns () → (go ()).Leaves post (body.writes s)) := by
  rw [leaves_bind]
  exact ⟨fun h => h (), fun h _ => h⟩

theorem leaves_last : body.Leaves post s ↔ (body.Returns () → post (body.writes s)) :=
  ⟨fun h => h (), fun h _ => h⟩

theorem leaves_read_bind : (read optional >>= next).Leaves post s ↔
    ∀ value, optional = some value → (next value).Leaves post s := by
  simp only [leaves_bind, returns_read]
  rfl

end Leaves

section Within

variable {γ δ : Type} {part : Part σ γ} {first : Handler σ α} {next : α → Handler σ β} {s t : σ}

theorem within_bind (hfirst : first.Within part) (hnext : ∀ value, (next value).Within part) :
    (first >>= next).Within part := by
  intro s t
  change (bind first next).writes _ = part.put s (part.get ((bind first next).writes t))
  rw [bind]
  cases first.outcome with
  | ok value =>
      dsimp only [Function.comp_apply]
      rw [hfirst, hnext]
  | error halt => exact hfirst s t

theorem Within.writes_eq (h : first.Within part) (hsame : part.get s = part.get t) :
    first.writes s = part.put s (part.get (first.writes t)) := by
  rw [← h s t, ← hsame, part.put_get]

-- It keeps what is no part of it.
theorem Within.keeps (h : first.Within part) {field : σ → δ}
    (hfield : ∀ s value, field (part.put s value) = field s) : first.Keeps field := by
  intro s
  rw [h.writes_eq rfl]
  exact hfield s _

end Within

section Closed

variable {γ : Type} {holds : ∀ {α : Type}, Handler σ α → Prop}

theorem Closed.when (h : Closed holds) {condition : Bool} {body : Handler σ Unit} (hbody : holds body) :
    holds (Handler.when condition body) := by
  cases condition with
  | true => exact hbody
  | false => exact h.quiet rfl

theorem closed_keeps (field : σ → γ) :
    Closed fun {_} (handler : Handler σ _) => handler.Keeps field where
  bind := keeps_bind
  quiet h s := by rw [h, id]

theorem closed_within (part : Part σ γ) :
    Closed fun {_} (handler : Handler σ _) => handler.Within part where
  bind := within_bind
  quiet h s t := by rw [h, id, id]

end Closed

end Handler

end LiveReceptor
