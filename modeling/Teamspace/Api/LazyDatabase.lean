import Teamspace.Lib.Lock
import Teamspace.Py.Str

/-!
# The lazy initialisers of the database

The class `Database` of `api/database.py`: an engine and a session factory that are built when they
are first asked for. Both initialisers check twice around the one lock of the class, and the second
calls the first while it holds the lock, which is not reentrant. So it waits for itself unless the
engine has been built before. `lazy_init_sound` says what holds of the runs in which
the factory is only asked for after that, from every start-up, `run_after_return` that a start-up
that builds the engine leaves no others, and `early_call_waits` what can become of a call that comes
too early.
-/

namespace Teamspace.Api.LazyDatabase

open Teamspace.Py Teamspace.Lib Teamspace.Lib.LockSystem

/-- An `Engine`, told from others by its identity. -/
structure Engine where
  id : Nat
  deriving DecidableEq, Repr

/-- What `sessionmaker(bind=bind)` makes. -/
structure SessionFactory where
  id : Nat
  bind : Option Engine
  deriving DecidableEq, Repr

/-- A `Session`. -/
structure Session where
  id : Nat
  factory : SessionFactory
  deriving DecidableEq, Repr

/-- The exceptions of the initialisers: those of `create_engine`, and the call of `None`. -/
inductive InitExn
  | createEngine (message : String)
  | typeError
  deriving DecidableEq, Repr

/-- What a thread does in one step, besides locking. -/
inductive Op
  | getEngine
  | setEngine (engine : Engine)
  | getSessionLocal
  | setSessionLocal (factory : SessionFactory)
  /-- `create_engine(settings.DATABASE_URL, ...)`. -/
  | createEngine
  /-- `sessionmaker(autocommit=False, autoflush=False, bind=bind)`. -/
  | newSessionmaker (bind : Option Engine)
  /-- The call of a factory. -/
  | newSession (factory : SessionFactory)

/-- What it gets. -/
abbrev Op.Ans : Op → Type
  | .getEngine => Option Engine
  | .setEngine _ => Unit
  | .getSessionLocal => Option SessionFactory
  | .setSessionLocal _ => Unit
  | .createEngine => Except InitExn Engine
  | .newSessionmaker _ => SessionFactory
  | .newSession _ => Session

/-- The attributes of the class, and how many objects have been made. -/
structure Attributes where
  engine : Option Engine
  sessionLocal : Option SessionFactory
  objects : Nat
  deriving DecidableEq, Repr

/-- What an operation does. A new engine may be refused, the other objects are made at once. -/
def exec : (o : Op) → Attributes → o.Ans → Attributes → Prop
  | .getEngine, s, a, t => a = s.engine ∧ t = s
  | .setEngine e, s, _, t => t = { s with engine := some e }
  | .getSessionLocal, s, a, t => a = s.sessionLocal ∧ t = s
  | .setSessionLocal f, s, _, t => t = { s with sessionLocal := some f }
  | .createEngine, s, a, t =>
    (a = .ok ⟨s.objects⟩ ∧ t = { s with objects := s.objects + 1 }) ∨
      ∃ message, a = .error (.createEngine message) ∧ t = s
  | .newSessionmaker bind, s, a, t =>
    a = ⟨s.objects, bind⟩ ∧ t = { s with objects := s.objects + 1 }
  | .newSession f, s, a, t => a = ⟨s.objects, f⟩ ∧ t = { s with objects := s.objects + 1 }

/-- A program of a thread. -/
abbrev Prog (α : Type) := Program (lockInterface Op Op.Ans InitExn) α

/-- Take one step. -/
abbrev step (o : Op) : Prog o.Ans := .op o .ret

/-- An attribute that `init` sets under the lock, if it is `None`, and then looked up again. -/
def lazily {α : Type} (read : Prog (Option α)) (init : Prog Unit) : Prog (Option α) := do
  if (← read).isNone then
    withLock do
      if (← read).isNone then init
  read

/-- `Database.engine`. -/
def engine : Prog (Option Engine) :=
  lazily (step .getEngine) do
    let created ← step .createEngine
    step (.setEngine (← .ofExcept created))

/-- `Database.sessionmaker`. -/
def sessionmaker : Prog (Option SessionFactory) :=
  lazily (step .getSessionLocal) do
    let bind ← engine
    let factory ← step (.newSessionmaker bind)
    step (.setSessionLocal factory)

/-- `get_engine`. -/
def getEngine : Prog (Option Engine) := engine

/-- `get_sessionmaker`. -/
def getSessionmaker : Prog (Option SessionFactory) := sessionmaker

/-- `get_db`, up to its `yield`. -/
def getDb : Prog Session := do
  match ← getSessionmaker with
  | none => .raise .typeError
  | some factory => step (.newSession factory)

/-- A call. -/
inductive Call
  | engine
  | sessionmaker
  | getDb
  deriving DecidableEq, Repr

/-- What a call returns. -/
inductive Result
  | engine (engine : Option Engine)
  | sessionmaker (factory : Option SessionFactory)
  | db (session : Session)
  deriving DecidableEq, Repr

/-- The program of a call. -/
def program : Call → Prog Result
  | .engine => do return .engine (← getEngine)
  | .sessionmaker => do return .sessionmaker (← getSessionmaker)
  | .getDb => do return .db (← getDb)

/-- Every operation can be carried out. -/
theorem exec_total (o : Op) (s : Attributes) : ∃ a t, exec o s a t := by
  cases o with
  | getEngine => exact ⟨s.engine, s, rfl, rfl⟩
  | setEngine e => exact ⟨(), _, rfl⟩
  | getSessionLocal => exact ⟨s.sessionLocal, s, rfl, rfl⟩
  | setSessionLocal f => exact ⟨(), _, rfl⟩
  | createEngine => exact ⟨.ok ⟨s.objects⟩, _, .inl ⟨rfl, rfl⟩⟩
  | newSessionmaker bind => exact ⟨⟨s.objects, bind⟩, _, rfl, rfl⟩
  | newSession f => exact ⟨⟨s.objects, f⟩, _, rfl, rfl⟩

/-- The threads that call the class. -/
abbrev threads : LockSystem where
  Op := Op
  Ans := Op.Ans
  Exn := InitExn
  State := Attributes
  Call := Call
  Out := Result
  exec := exec
  total := exec_total
  program := program

/-- A call that asks for the factory finds the engine built when it begins. -/
def AfterEngine (call : Call) (s : Attributes) : Prop := call = .engine ∨ s.engine ≠ none

/-- Whoever takes the lock to look for the factory finds the engine built. -/
def EngineFirst (p : Prog Result) (s : Attributes) : Prop :=
  (∃ k, p = .op .getSessionLocal k) → s.engine ≠ none

/-! ## Results -/

/-- The engine that a call returned, or that is bound to what it returned. -/
def Result.engineOf : Result → Option Engine
  | .engine e => e
  | .sessionmaker f => f.bind SessionFactory.bind
  | .db session => session.factory.bind

/-- The factory that a call returned, or that made what it returned. -/
def Result.factoryOf : Result → Option SessionFactory
  | .engine _ => none
  | .sessionmaker f => f
  | .db session => some session.factory

/-- The result comes from the attributes of the class. -/
structure Result.From (a : Result) (s : Attributes) : Prop where
  engine : a.engineOf = s.engine
  built : s.engine ≠ none
  factory : ∀ f, a.factoryOf = some f → s.sessionLocal = some f

/-- A factory is bound to the engine. -/
def Bound (s : Attributes) : Prop :=
  ∀ f, s.sessionLocal = some f → f.bind = s.engine ∧ s.engine ≠ none

/-- What is built stays. -/
structure Grows (s t : Attributes) : Prop where
  engine : ∀ e, s.engine = some e → t.engine = some e
  sessionLocal : ∀ f, s.sessionLocal = some f → t.sessionLocal = some f

/-- The attributes are set under the lock, and once. -/
def discipline : Discipline threads where
  inv := Bound
  keeps := Grows
  Guarded := Option Engine × Option SessionFactory
  guarded s := (s.engine, s.sessionLocal)
  post := Result.From
  raises e := ∃ message, e = .createEngine message
  keeps_refl _ := ⟨fun _ h => h, fun _ h => h⟩
  keeps_trans h h' := ⟨fun e he => h'.engine e (h.engine e he),
    fun f hf => h'.sessionLocal f (h.sessionLocal f hf)⟩

/-! ## Rules of the operations -/

section

variable {cond : Prog Result → Attributes → Prop} {held : Bool} {s : Attributes}

/-- After a look for the engine a thread goes on with what it found. -/
theorem ok_getEngine {k : Option Engine → Prog Result}
    (hk : ∀ t, discipline.Rely held s t → discipline.Ok cond held (k t.engine) t) :
    discipline.Ok cond held (.op .getEngine k) s := by
  intro t ht a u hexec
  obtain ⟨rfl, hu⟩ := hexec
  rw [hu]
  exact ⟨ht.inv, discipline.keeps_refl t, fun _ => rfl, hk t ht⟩

/-- So it does after a look for the factory. -/
theorem ok_getSessionLocal {k : Option SessionFactory → Prog Result}
    (hk : ∀ t, discipline.Rely held s t → discipline.Ok cond held (k t.sessionLocal) t) :
    discipline.Ok cond held (.op .getSessionLocal k) s := by
  intro t ht a u hexec
  obtain ⟨rfl, hu⟩ := hexec
  rw [hu]
  exact ⟨ht.inv, discipline.keeps_refl t, fun _ => rfl, hk t ht⟩

/-- The making of an object changes no attribute of the class. -/
theorem made_object {t : Attributes} (ht : discipline.Rely held s t) {P : Prop}
    (hP : discipline.Rely held s { t with objects := t.objects + 1 } → P) :
    discipline.inv { t with objects := t.objects + 1 } ∧
      discipline.keeps t { t with objects := t.objects + 1 } ∧
      (held = false → discipline.guarded { t with objects := t.objects + 1 } = discipline.guarded t) ∧
        P := by
  have hkeeps : discipline.keeps t { t with objects := t.objects + 1 } := ⟨fun _ h => h, fun _ h => h⟩
  exact ⟨ht.inv, hkeeps, fun _ => rfl, hP (ht.trans ⟨hkeeps, fun _ => rfl, ht.inv⟩)⟩

/-- After `create_engine` it goes on with the engine, or with the exception. -/
theorem ok_createEngine {k : Except InitExn Engine → Prog Result}
    (hok : ∀ t e, discipline.Rely held s t → discipline.Ok cond held (k (.ok e)) t)
    (herror : ∀ t message, discipline.Rely held s t →
      discipline.Ok cond held (k (.error (.createEngine message))) t) :
    discipline.Ok cond held (.op .createEngine k) s := by
  intro t ht a u hexec
  rcases hexec with ⟨rfl, hu⟩ | ⟨message, rfl, hu⟩
  · rw [hu]
    exact made_object ht (hok _ _)
  · rw [hu]
    exact ⟨ht.inv, discipline.keeps_refl t, fun _ => rfl, herror t _ ht⟩

/-- A new factory is bound to the engine that it was given. -/
theorem ok_newSessionmaker {bind : Option Engine} {k : SessionFactory → Prog Result}
    (hk : ∀ t f, discipline.Rely held s t → f.bind = bind →
      discipline.Ok cond held (k f) t) :
    discipline.Ok cond held (.op (.newSessionmaker bind) k) s := by
  intro t ht a u hexec
  obtain ⟨rfl, hu⟩ := hexec
  rw [hu]
  exact made_object ht fun hst => hk _ _ hst rfl

/-- A new session comes from the factory. -/
theorem ok_newSession {f : SessionFactory} {k : Session → Prog Result}
    (hk : ∀ t x, discipline.Rely held s t → x.factory = f →
      discipline.Ok cond held (k x) t) :
    discipline.Ok cond held (.op (.newSession f) k) s := by
  intro t ht a u hexec
  obtain ⟨rfl, hu⟩ := hexec
  rw [hu]
  exact made_object ht fun hst => hk _ _ hst rfl

/-- The engine is set by the thread that has the lock and has found none. -/
theorem ok_setEngine {e : Engine} {k : Unit → Prog Result} (hs : s.engine = none)
    (hk : ∀ t, discipline.inv t → t.engine = some e → discipline.Ok cond true (k ()) t) :
    discipline.Ok cond true (.op (.setEngine e) k) s := by
  intro t ht a u hu
  have hnone : t.engine = none := (congrArg Prod.fst (ht.guarded rfl)).trans hs
  have hinv : discipline.inv u := by
    rw [hu]
    exact fun f hf => absurd hnone (ht.inv f hf).2
  refine ⟨hinv, ⟨fun e' he' => ?_, fun f hf => ?_⟩, nofun, hk u hinv (by rw [hu])⟩
  · rw [hnone] at he'
    cases he'
  · rw [hu]
    exact hf

/-- The factory is set by the thread that has the lock and has found none. -/
theorem ok_setSessionLocal {f : SessionFactory} {k : Unit → Prog Result}
    (hs : s.sessionLocal = none) (hf : f.bind = s.engine) (he : s.engine ≠ none)
    (hk : ∀ t, discipline.inv t → t.sessionLocal = some f →
      discipline.Ok cond true (k ()) t) :
    discipline.Ok cond true (.op (.setSessionLocal f) k) s := by
  intro t ht a u hu
  have hnone : t.sessionLocal = none := (congrArg Prod.snd (ht.guarded rfl)).trans hs
  have hengine : t.engine = s.engine := congrArg Prod.fst (ht.guarded rfl)
  have hinv : discipline.inv u := by
    rw [hu]
    intro f' hf'
    cases hf'
    exact ⟨hf.trans hengine.symm, fun h => he (hengine.symm.trans h)⟩
  refine ⟨hinv, ⟨fun e' he' => ?_, fun f' hf' => ?_⟩, nofun, hk u hinv (by rw [hu])⟩
  · rw [hu]
    exact he'
  · rw [hnone] at hf'
    cases hf'

end

/-! ## The initialisers keep to the discipline -/

/-- `engine()`, with what follows it, step by step. -/
theorem engine_steps (k : Option Engine → Prog Result) :
    ∃ (k₁ k₂ : Option Engine → Prog Result) (k₃ : Except InitExn Engine → Prog Result),
      (engine >>= k) = .op .getEngine k₁ ∧
      (∀ e, k₁ (some e) = .op .getEngine k) ∧
      k₁ none = .await .acquire (fun _ => .op .getEngine k₂) ∧
      (∀ e, k₂ (some e) = .await .release fun _ => .op .getEngine k) ∧
      k₂ none = .op .createEngine k₃ ∧
      (∀ e, k₃ (.ok e) = .op (.setEngine e) fun _ => .await .release fun _ => .op .getEngine k) ∧
      ∀ x, k₃ (.error x) = .await .release fun _ => .raise x :=
  ⟨_, _, _, rfl, fun _ => rfl, rfl, fun _ => rfl, rfl, fun _ => rfl, fun _ => rfl⟩

/-- `sessionmaker()`, with what follows it, step by step up to the lock of `engine()`. -/
theorem sessionmaker_steps (k : Option SessionFactory → Prog Result) :
    ∃ (k₁ k₂ : Option SessionFactory → Prog Result) (k₃ : Option Engine → Prog Result)
      (k₄ : Unit → Prog Result),
      (sessionmaker >>= k) = .op .getSessionLocal k₁ ∧
      (∀ f, k₁ (some f) = .op .getSessionLocal k) ∧
      k₁ none = .await .acquire (fun _ => .op .getSessionLocal k₂) ∧
      (∀ f, k₂ (some f) = .await .release fun _ => .op .getSessionLocal k) ∧
      k₂ none = .op .getEngine k₃ ∧
      (∀ e, k₃ (some e) = .op .getEngine fun bind => .op (.newSessionmaker bind) fun f =>
        .op (.setSessionLocal f) fun _ => .await .release fun _ => .op .getSessionLocal k) ∧
      k₃ none = .await .acquire k₄ :=
  ⟨_, _, _, _, rfl, fun _ => rfl, rfl, fun _ => rfl, rfl, fun _ => rfl, rfl⟩

/-- A request looks for the factory, and opens a session of it. -/
theorem getDb_steps : ∃ k : Option SessionFactory → Prog Result,
    program .getDb = (sessionmaker >>= k) ∧
      (∀ f, k (some f) = .op (.newSession f) fun session => .ret (.db session)) ∧
      k none = .raise .typeError :=
  ⟨_, Program.bind_assoc' .., fun _ => rfl, rfl⟩

section

variable {cond : Prog Result → Attributes → Prop} {s : Attributes}

/-- A look at an engine that is built. -/
theorem ok_getEngine_built {held : Bool} {k : Option Engine → Prog Result} (hs : s.engine ≠ none)
    (hk : ∀ t e, discipline.Rely held s t → t.engine = some e →
      discipline.Ok cond held (k (some e)) t) :
    discipline.Ok cond held (.op .getEngine k) s := by
  obtain ⟨e, he⟩ := Option.ne_none_iff_exists'.1 hs
  refine ok_getEngine fun t ht => ?_
  have hread : t.engine = some e := ht.keeps.engine e he
  rw [hread]
  exact hk t e ht hread

/-- A look at a factory that is built. -/
theorem ok_getSessionLocal_built {held : Bool} {k : Option SessionFactory → Prog Result}
    (hs : s.sessionLocal ≠ none)
    (hk : ∀ t f, discipline.Rely held s t → t.sessionLocal = some f →
      discipline.Ok cond held (k (some f)) t) :
    discipline.Ok cond held (.op .getSessionLocal k) s := by
  obtain ⟨f, hf⟩ := Option.ne_none_iff_exists'.1 hs
  refine ok_getSessionLocal fun t ht => ?_
  have hread : t.sessionLocal = some f := ht.keeps.sessionLocal f hf
  rw [hread]
  exact hk t f ht hread

/-- `engine()` keeps to the discipline and returns the engine. -/
theorem engine_ok {k : Option Engine → Prog Result}
    (hk : ∀ t e, discipline.inv t → t.engine = some e →
      discipline.Ok cond false (k (some e)) t) :
    discipline.Ok cond false (engine >>= k) s := by
  obtain ⟨k₁, k₂, k₃, hp, hsome₁, hnone₁, hsome₂, hnone₂, hok, herror⟩ := engine_steps k
  -- the look after the initialisation
  have hlast (t : Attributes) (ht : t.engine ≠ none) :
      discipline.Ok cond false (.op .getEngine k) t :=
    ok_getEngine_built ht fun u e hu he => hk u e hu.inv he
  rw [hp]
  refine ok_getEngine fun t ht => ?_
  cases he : t.engine with
  | some e =>
    rw [hsome₁]
    exact hlast t (by rw [he]; nofun)
  | none =>
    rw [hnone₁]
    refine ⟨rfl, fun u hu _ => ok_getEngine fun v hv => ?_⟩
    cases he : v.engine with
    | some e =>
      rw [hsome₂]
      refine ⟨rfl, fun w hw => hlast w ?_⟩
      rw [hw.keeps.engine e he]
      nofun
    | none =>
      rw [hnone₂]
      refine ok_createEngine (fun w e hw => ?_) fun w x hw => ?_
      · rw [hok]
        have hnone : w.engine = none := (congrArg Prod.fst (hw.guarded rfl)).trans he
        refine ok_setEngine hnone fun x hx he => ⟨rfl, fun y hy => hlast y ?_⟩
        rw [hy.keeps.engine e he]
        nofun
      · rw [herror]
        exact ⟨rfl, fun _ _ => ⟨rfl, x, rfl⟩⟩

/-- Where `cond` lets a thread take the lock to look for the factory, the engine has been built. -/
abbrev Built (cond : Prog Result → Attributes → Prop) (s : Attributes) : Prop :=
  ∀ t k, discipline.Rely false s t → cond (.op .getSessionLocal k) t → t.engine ≠ none

/-- `sessionmaker()` keeps to the discipline, if it takes the lock with an engine that is built, and
returns the factory. -/
theorem sessionmaker_ok {k : Option SessionFactory → Prog Result} (hbuilt : Built cond s)
    (hk : ∀ t f, discipline.inv t → t.sessionLocal = some f →
      discipline.Ok cond false (k (some f)) t) :
    discipline.Ok cond false (sessionmaker >>= k) s := by
  obtain ⟨k₁, k₂, k₃, -, hp, hsome₁, hnone₁, hsome₂, hnone₂, hbuild, -⟩ := sessionmaker_steps k
  have hlast (t : Attributes) (ht : t.sessionLocal ≠ none) :
      discipline.Ok cond false (.op .getSessionLocal k) t :=
    ok_getSessionLocal_built ht fun u f hu hf => hk u f hu.inv hf
  rw [hp]
  refine ok_getSessionLocal fun t ht => ?_
  cases hf : t.sessionLocal with
  | some f =>
    rw [hsome₁]
    exact hlast t (by rw [hf]; nofun)
  | none =>
    rw [hnone₁]
    refine ⟨rfl, fun u hu hfirst => ok_getSessionLocal fun v hv => ?_⟩
    cases hf : v.sessionLocal with
    | some f =>
      rw [hsome₂]
      refine ⟨rfl, fun w hw => hlast w ?_⟩
      rw [hw.keeps.sessionLocal f hf]
      nofun
    | none =>
      rw [hnone₂]
      -- the condition: the engine is there, so `engine()` asks for no lock
      have hv₁ : v.engine ≠ none := by
        obtain ⟨e, he⟩ := Option.ne_none_iff_exists'.1 (hbuilt u _ (ht.trans hu) hfirst)
        rw [hv.keeps.engine e he]
        nofun
      refine ok_getEngine_built hv₁ fun w e hw he => ?_
      rw [hbuild]
      refine ok_getEngine_built (by rw [he]; nofun) fun w' e' hw' he' => ?_
      refine ok_newSessionmaker fun x f hx hbind => ?_
      have hx' := (hw.trans hw').trans hx
      have hnone : x.sessionLocal = none := (congrArg Prod.snd (hx'.guarded rfl)).trans hf
      have hengine : x.engine = some e' := hx.keeps.engine e' he'
      refine ok_setSessionLocal hnone (hbind.trans hengine.symm) (by rw [hengine]; nofun)
        fun y hy hf => ⟨rfl, fun z hz => hlast z ?_⟩
      rw [hz.keeps.sessionLocal f hf]
      nofun

/-- A call keeps to the discipline, if it is one of `engine()` or takes the lock with an engine that
is built. -/
theorem program_ok {call : Call} (h : call = .engine ∨ Built cond s) :
    discipline.Ok cond false (program call) s := by
  cases call with
  | engine =>
    refine engine_ok fun t e ht he => ⟨rfl, fun u hu => ?_⟩
    have he := hu.keeps.engine e he
    exact ⟨he.symm, by rw [he]; nofun, nofun⟩
  | sessionmaker =>
    refine sessionmaker_ok (h.resolve_left nofun) fun t f ht hf => ⟨rfl, fun u hu => ?_⟩
    have hf := hu.keeps.sessionLocal f hf
    obtain ⟨hbind, hbuilt⟩ := hu.inv f hf
    refine ⟨hbind, hbuilt, fun f' hf' => ?_⟩
    cases hf'
    exact hf
  | getDb =>
    obtain ⟨k, hp, hk, -⟩ := getDb_steps
    rw [hp]
    refine sessionmaker_ok (h.resolve_left nofun) fun t f ht hf => ?_
    rw [hk]
    refine ok_newSession fun u x hu hx => ⟨rfl, fun v hv => ?_⟩
    have hf := hv.keeps.sessionLocal f (hu.keeps.sessionLocal f hf)
    obtain ⟨hbind, hbuilt⟩ := hv.inv f hf
    rw [← hx] at hf hbind
    refine ⟨hbind, hbuilt, fun f' hf' => ?_⟩
    cases hf'
    exact hf

/-- A call that begins with the engine built keeps to the discipline. -/
theorem program_always {call : Call} (h : AfterEngine call s) :
    discipline.Always false (program call) s :=
  program_ok <| h.imp_right fun hs t k ht _ => by
    obtain ⟨e, he⟩ := Option.ne_none_iff_exists'.1 hs
    rw [ht.keeps.engine e he]
    nofun

/-- Every call keeps to the discipline as far as it takes the lock with an engine that is built. -/
theorem program_first (call : Call) : discipline.Ok EngineFirst false (program call) s :=
  program_ok (.inr fun _ k _ h => h ⟨k, rfl⟩)

end

/-! ## Runs -/

/-- What holds in every state of a run. -/
structure Sound (c : threads.Config) : Prop where
  /-- No thread waits for the lock while it holds it. -/
  noSelfWait : ∀ i, Asks c i → c.holder ≠ some i
  /-- Every call can return without another one beginning, unless the engine that it asked for could
  not be created. -/
  canEnd : ∀ i, c.thread i ≠ none → ∃ c', Onward c c' ∧
    ((∃ a, Returned c' i a) ∨ ∃ message, Raised c' i (.createEngine message))
  /-- All calls return the same engine and the same factory. -/
  agree : ∀ i j a b, Returned c i a → Returned c j b →
    (∃ e, a.engineOf = some e ∧ b.engineOf = some e) ∧
      ∀ f g, a.factoryOf = some f → b.factoryOf = some g → f = g

/-- The calls of the class go well in every run in which the factory is only asked for once the
engine has been built. -/
theorem lazy_init_sound {s : Attributes} {c : threads.Config} (hs : Bound s)
    (hrun : Run AfterEngine (.start s) c) : Sound c := by
  have hadmits : discipline.Admits AfterEngine := fun _ _ _ => program_always
  have hkept : discipline.Kept c := (Discipline.Kept.start hs).run hadmits hrun
  refine ⟨fun i hi => hkept.not_self_wait hi, fun i hi => ?_, fun i j a b ha hb => ?_⟩
  · obtain ⟨c', hrun', hend⟩ := hkept.can_end hi
    refine ⟨c', hrun', hend.imp_right ?_⟩
    rintro ⟨e, he⟩
    obtain ⟨message, rfl⟩ := (hkept.run Discipline.admits_none hrun').raises he
    exact ⟨message, he⟩
  · have hfrom := hkept.post ha
    have hfrom' := hkept.post hb
    obtain ⟨e, he⟩ := Option.ne_none_iff_exists'.1 hfrom.built
    refine ⟨⟨e, hfrom.engine.trans he, hfrom'.engine.trans he⟩, fun f g hf hg => ?_⟩
    exact Option.some.inj ((hfrom.factory f hf).symm.trans (hfrom'.factory g hg))

/-- Nothing has been built. -/
def fresh : Attributes := ⟨none, none, 0⟩

/-- The engine has been built. -/
def engineBuilt : Attributes := ⟨some ⟨0⟩, none, 1⟩

/-- A call of `engine()` in a fresh process goes on to return the engine. -/
theorem engine_builds : Run AfterEngine (.start fresh) ((Config.start fresh : threads.Config).solo
    0 engineBuilt none (.ret (.engine (some ⟨0⟩)))) := by
  obtain ⟨k₁, k₂, k₃, hp, -, hnone₁, -, hnone₂, hok, -⟩ := engine_steps fun e => .ret (.engine e)
  let c : threads.Config := .start fresh
  have hcall : Step AfterEngine c (c.solo 0 fresh none (.op .getEngine k₁)) := by
    rw [← hp]
    exact .solo_call c LazyDatabase.Call.engine rfl (.inl rfl)
  refine .head hcall (.head (.solo_op c ⟨rfl, rfl⟩) ?_)
  rw [show k₁ fresh.engine = _ from hnone₁]
  refine .head (.solo_acquire c) (.head (.solo_op c ⟨rfl, rfl⟩) ?_)
  rw [show k₂ fresh.engine = _ from hnone₂]
  refine .head (.solo_op c (.inl ⟨rfl, rfl⟩)) ?_
  rw [hok]
  exact .head (.solo_op c (a := ()) rfl) (.head (.solo_release c) (.single (.solo_op c ⟨rfl, rfl⟩)))

/-- After a call of `engine()` the first request takes the lock, and all goes well. -/
theorem first_request_sound : ∃ c : threads.Config, Run AfterEngine (.start fresh) c ∧
    Returned c 0 (.engine (some ⟨0⟩)) ∧ c.holder = some 1 ∧ Sound c := by
  obtain ⟨k, hp, -⟩ := getDb_steps
  obtain ⟨k₁, k₂, -, -, hp₁, -, hnone₁, -⟩ := sessionmaker_steps k
  let c : threads.Config :=
    (Config.start fresh).solo 0 engineBuilt none (.ret (.engine (some ⟨0⟩)))
  have hcall : Step AfterEngine c (c.solo 1 engineBuilt none (.op .getSessionLocal k₁)) := by
    rw [← hp₁, ← hp]
    exact .solo_call c LazyDatabase.Call.getDb rfl (.inr nofun)
  have hlook : Step AfterEngine (c.solo 1 engineBuilt none (.op .getSessionLocal k₁))
      (c.solo 1 engineBuilt none (.await .acquire fun _ => .op .getSessionLocal k₂)) := by
    rw [← hnone₁]
    exact .solo_op c ⟨rfl, rfl⟩
  have hrun : Run AfterEngine (.start fresh)
      (c.solo 1 engineBuilt (some 1) (.op .getSessionLocal k₂)) :=
    engine_builds.tail hcall |>.tail hlook |>.tail (.solo_acquire c)
  refine ⟨_, hrun, ?_, rfl, lazy_init_sound (s := fresh) nofun hrun⟩
  exact Config.put_of_ne _ Nat.zero_ne_one _

/-- The first request of a process whose start-up has built no engine waits for itself. -/
theorem first_request_waits_for_itself : ¬ ∀ c : threads.Config,
    Run (fun _ _ => True) (.start fresh) c → ∀ i, Asks c i → c.holder ≠ some i := by
  intro h
  obtain ⟨k, hp, -⟩ := getDb_steps
  obtain ⟨k₁, k₂, k₃, k₄, hp₁, -, hnone₁, -, hnone₂, -, hnone₃⟩ := sessionmaker_steps k
  let c : threads.Config := .start fresh
  have hcall : Step (fun _ _ => True) c (c.solo 0 fresh none (.op .getSessionLocal k₁)) := by
    rw [← hp₁, ← hp]
    exact .solo_call c LazyDatabase.Call.getDb rfl trivial
  have hlook : Step (fun _ _ => True) (c.solo 0 fresh none (.op .getSessionLocal k₁))
      (c.solo 0 fresh none (.await .acquire fun _ => .op .getSessionLocal k₂)) := by
    rw [← hnone₁]
    exact .solo_op c ⟨rfl, rfl⟩
  have hagain : Step (fun _ _ => True) (c.solo 0 fresh (some 0) (.op .getSessionLocal k₂))
      (c.solo 0 fresh (some 0) (.op .getEngine k₃)) := by
    rw [← hnone₂]
    exact .solo_op c ⟨rfl, rfl⟩
  have hengine : Step (fun _ _ => True) (c.solo 0 fresh (some 0) (.op .getEngine k₃))
      (c.solo 0 fresh (some 0) (.await .acquire k₄)) := by
    rw [← hnone₃]
    exact .solo_op c ⟨rfl, rfl⟩
  have hrun := Relation.ReflTransGen.refl.tail hcall |>.tail hlook |>.tail (.solo_acquire c)
    |>.tail hagain |>.tail hengine
  exact h _ hrun 0 ⟨k₄, Config.put_self ..⟩ rfl

/-- Once a call has returned, every run is one of those: a start-up that builds the engine leaves no
others. -/
theorem run_after_return {s : Attributes} {c c' : threads.Config} {i : Nat} {a : Result}
    (hs : Bound s) (hrun : Run AfterEngine (.start s) c) (ha : Returned c i a)
    (hrun' : Run (fun _ _ => True) c c') : Run AfterEngine c c' := by
  have hadmits : discipline.Admits AfterEngine := fun _ _ _ => program_always
  have hkept : discipline.Kept c := (Discipline.Kept.start hs).run hadmits hrun
  refine (hkept.run_of_ready hadmits (fun t ht call => .inr ?_) hrun').1
  obtain ⟨e, he⟩ := Option.ne_none_iff_exists'.1 (hkept.post ha).built
  rw [ht.engine e he]
  nofun

/-! ## The condition is exact -/

/-- A thread that takes the lock to look for the factory, and finds neither it nor the engine, asks
for the lock again. -/
def AsksAgain (p : Prog Result) : Prop :=
  ∀ k k₂, p = .await .acquire k → k () = .op .getSessionLocal k₂ →
    ∃ k₃ k₄, k₂ none = .op .getEngine k₃ ∧ k₃ none = .await .acquire k₄

/-- Within `engine()` no thread takes the lock to look for the factory. -/
theorem engine_asksAgain {k : Option Engine → Prog Result}
    (hk : ∀ e, (k e).Everywhere AsksAgain) : (engine >>= k).Everywhere AsksAgain := by
  refine ⟨nofun, fun found => ?_⟩
  cases found with
  | some e => exact ⟨nofun, hk⟩
  | none =>
    refine ⟨?_, fun _ => ⟨nofun, fun found => ?_⟩⟩
    · rintro k k₂ ⟨⟩ ⟨⟩
    · cases found with
      | some e => exact ⟨nofun, fun _ => ⟨nofun, hk⟩⟩
      | none =>
        refine ⟨nofun, fun created => ?_⟩
        cases created with
        | ok e => exact ⟨nofun, fun _ => ⟨nofun, fun _ => ⟨nofun, hk⟩⟩⟩
        | error x => exact ⟨nofun, fun _ => nofun⟩

/-- Within `sessionmaker()` a thread that does so asks again, in `engine()`. -/
theorem sessionmaker_asksAgain {k : Option SessionFactory → Prog Result}
    (hk : ∀ f, (k f).Everywhere AsksAgain) : (sessionmaker >>= k).Everywhere AsksAgain := by
  -- the factory is made, set and looked up
  have hmake (bind : Option Engine) : (Program.op (.newSessionmaker bind) fun f =>
      .op (.setSessionLocal f) fun _ => .await .release fun _ => .op .getSessionLocal k :
      Prog Result).Everywhere AsksAgain :=
    ⟨nofun, fun _ => ⟨nofun, fun _ => ⟨nofun, fun _ => ⟨nofun, hk⟩⟩⟩⟩
  refine ⟨nofun, fun found => ?_⟩
  cases found with
  | some f => exact ⟨nofun, hk⟩
  | none =>
    refine ⟨?_, fun _ => ⟨nofun, fun found => ?_⟩⟩
    · rintro k k₂ ⟨⟩ ⟨⟩
      exact ⟨_, _, rfl, rfl⟩
    · cases found with
      | some f => exact ⟨nofun, fun _ => ⟨nofun, hk⟩⟩
      | none =>
        refine ⟨nofun, fun found => ?_⟩
        cases found with
        | some e => exact ⟨nofun, hmake⟩
        | none =>
          refine ⟨?_, fun _ => ⟨nofun, fun found => ?_⟩⟩
          · rintro k k₂ ⟨⟩ ⟨⟩
          · cases found with
            | some e => exact ⟨nofun, fun _ => ⟨nofun, hmake⟩⟩
            | none =>
              refine ⟨nofun, fun created => ?_⟩
              cases created with
              | ok e => exact ⟨nofun, fun _ => ⟨nofun, fun _ => ⟨nofun, hmake⟩⟩⟩
              | error x => exact ⟨nofun, fun _ => ⟨nofun, fun _ => nofun⟩⟩

/-- So it is within every call. -/
theorem program_asksAgain (call : Call) : (program call).Everywhere AsksAgain := by
  cases call with
  | engine => exact engine_asksAgain fun _ => nofun
  | sessionmaker => exact sessionmaker_asksAgain fun _ => nofun
  | getDb =>
    obtain ⟨k, hp, hk, hnone⟩ := getDb_steps
    rw [hp]
    refine sessionmaker_asksAgain fun found => ?_
    cases found with
    | some f =>
      rw [hk]
      exact ⟨nofun, fun _ => nofun⟩
    | none =>
      rw [hnone]
      exact nofun

/-- Thread `i` has the lock, nothing has been built, and it will ask for the lock again. -/
structure Stuck (i : Nat) (c : threads.Config) : Prop where
  holder : c.holder = some i
  engine : c.state.engine = none
  sessionLocal : c.state.sessionLocal = none
  thread : (∃ k₂ k₃ k₄, c.thread i = some (.op .getSessionLocal k₂) ∧ k₂ none = .op .getEngine k₃ ∧
      k₃ none = .await .acquire k₄) ∨
    (∃ k₃ k₄, c.thread i = some (.op .getEngine k₃) ∧ k₃ none = .await .acquire k₄) ∨
    ∃ k₄, c.thread i = some (.await .acquire k₄)
  others : ∀ j ≠ i, ∀ p, c.thread j = some p → discipline.Ok EngineFirst false p c.state

/-- A thread that is stuck has not ended and does not release the lock. -/
theorem Stuck.thread_eq {i : Nat} {c : threads.Config} (h : Stuck i c) :
    ∃ p, c.thread i = some p ∧ (∀ a, p ≠ .ret a) ∧ (∀ e, p ≠ .raise e) ∧
      ∀ k, p ≠ .await .release k := by
  rcases h.thread with ⟨k₂, _, _, hp, -, -⟩ | ⟨k₃, _, hp, -⟩ | ⟨k₄, hp⟩
  · exact ⟨_, hp, nofun, nofun, nofun⟩
  · exact ⟨_, hp, nofun, nofun, nofun⟩
  · exact ⟨_, hp, nofun, nofun, nofun⟩

/-- Whatever happens it stays stuck. -/
theorem Stuck.step {i : Nat} {c c' : threads.Config} (h : Stuck i c)
    (hstep : Step (fun _ _ => True) c c') : Stuck i c' := by
  have hbound : discipline.inv c.state := by
    intro f hf
    rw [h.sessionLocal] at hf
    cases hf
  obtain ⟨p, hp, -, -, hrelease⟩ := h.thread_eq
  cases hstep with
  | @call j call hj _ =>
    have hij : i ≠ j := by
      rintro rfl
      rw [hp] at hj
      cases hj
    refine ⟨h.holder, h.engine, h.sessionLocal, ?_, fun l hl q hq => ?_⟩
    · rw [Config.put_of_ne _ hij]
      exact h.thread
    · by_cases hlj : l = j
      · subst hlj
        rw [Config.put_self] at hq
        cases hq
        exact program_first call
      · rw [Config.put_of_ne _ hlj] at hq
        exact h.others l hl q hq
  | @op j o k a s hj hexec =>
    by_cases hji : j = i
    · subst hji
      -- it finds neither the factory nor the engine
      have hothers {t : Attributes} (ht : t = c.state) {q : Prog Result} :
          ∀ l ≠ j, ∀ r, (Config.put { c with state := t } j q).thread l = some r →
            discipline.Ok EngineFirst false r t := by
        intro l hl r hr
        rw [Config.put_of_ne _ hl] at hr
        rw [ht]
        exact h.others l hl r hr
      rcases h.thread with ⟨k₂, k₃, k₄, hk₂, hnone, hnone'⟩ | ⟨k₃, k₄, hk₃, hnone⟩ | ⟨k₄, hk₄⟩
      · cases hk₂.symm.trans hj
        obtain ⟨rfl, hs⟩ := hexec
        refine ⟨h.holder, ?_, ?_, .inr (.inl ⟨k₃, k₄, ?_, hnone'⟩), hothers hs⟩
        · exact (congrArg Attributes.engine hs).trans h.engine
        · exact (congrArg Attributes.sessionLocal hs).trans h.sessionLocal
        · rw [Config.put_self, h.sessionLocal, hnone]
      · cases hk₃.symm.trans hj
        obtain ⟨rfl, hs⟩ := hexec
        refine ⟨h.holder, ?_, ?_, .inr (.inr ⟨k₄, ?_⟩), hothers hs⟩
        · exact (congrArg Attributes.engine hs).trans h.engine
        · exact (congrArg Attributes.sessionLocal hs).trans h.sessionLocal
        · rw [Config.put_self, h.engine, hnone]
      · cases hk₄.symm.trans hj
    · -- without the lock, another thread changes neither attribute
      obtain ⟨hinv, hkeeps, hguarded, hok⟩ :=
        h.others j hji _ hj c.state (.refl hbound) a s hexec
      refine ⟨h.holder, (congrArg Prod.fst (hguarded rfl)).trans h.engine,
        (congrArg Prod.snd (hguarded rfl)).trans h.sessionLocal, ?_, fun l hl q hq => ?_⟩
      · rw [Config.put_of_ne _ (Ne.symm hji)]
        exact h.thread
      · by_cases hlj : l = j
        · subst hlj
          rw [Config.put_self] at hq
          cases hq
          exact hok
        · rw [Config.put_of_ne _ hlj] at hq
          exact (h.others l hl q hq).stable ⟨hkeeps, nofun, hinv⟩
  | acquire _ hfree =>
    rw [h.holder] at hfree
    cases hfree
  | @release j k hj =>
    by_cases hji : j = i
    · subst hji
      cases hp.symm.trans hj
      exact absurd rfl (hrelease k)
    · exact absurd (h.others j hji _ hj).1 Bool.false_ne_true

/-- So it does through every run. -/
theorem Stuck.run {i : Nat} {c c' : threads.Config} (h : Stuck i c)
    (hrun : Run (fun _ _ => True) c c') : Stuck i c' := by
  induction hrun with
  | refl => exact h
  | tail _ hstep ih => exact ih.step hstep

/-- It keeps the lock for ever, and never ends. -/
theorem Stuck.never_ends {i : Nat} {c c' : threads.Config} (h : Stuck i c)
    (hrun : Run (fun _ _ => True) c c') : c'.holder = some i ∧ ¬ Ended c' i := by
  have hstuck := h.run hrun
  obtain ⟨p, hp, hret, hraise, -⟩ := hstuck.thread_eq
  refine ⟨hstuck.holder, ?_⟩
  rintro (⟨a, ha⟩ | ⟨e, he⟩)
  · exact hret a (Option.some.inj (hp.symm.trans ha))
  · exact hraise e (Option.some.inj (hp.symm.trans he))

/-- A call that asks for the factory begins with a look for it, and goes on with the lock if there is
none. -/
theorem early_steps {call : Call} (hcall : call ≠ .engine) :
    ∃ k₁ k₂, program call = .op .getSessionLocal k₁ ∧
      k₁ none = .await .acquire fun _ => .op .getSessionLocal k₂ := by
  cases call with
  | engine => exact absurd rfl hcall
  | sessionmaker =>
    obtain ⟨k₁, k₂, -, -, hp, -, hnone, -⟩ := sessionmaker_steps fun f => .ret (.sessionmaker f)
    exact ⟨k₁, k₂, hp, hnone⟩
  | getDb =>
    obtain ⟨k, hp, -⟩ := getDb_steps
    obtain ⟨k₁, k₂, -, -, hp₁, -, hnone, -⟩ := sessionmaker_steps k
    exact ⟨k₁, k₂, hp.trans hp₁, hnone⟩

/-- A call that asks for the factory while there is no engine and the lock is free can go on, with
no other call beginning, to where it keeps the lock for ever and never ends. -/
theorem early_call_waits {s : Attributes} {c : threads.Config} (hs : Bound s)
    (hrun : Run AfterEngine (.start s) c) (i : Nat) {call : Call}
    (hearly : ¬ AfterEngine call c.state) (hfree : c.holder = none) :
    ∃ c', Onward (c.put i (program call)) c' ∧
      ∀ c'', Run (fun _ _ => True) c' c'' → c''.holder = some i ∧ ¬ Ended c'' i := by
  have hadmits : discipline.Admits AfterEngine := fun _ _ _ => program_always
  have hkept : discipline.Kept c := (Discipline.Kept.start hs).run hadmits hrun
  obtain ⟨hcall, hengine⟩ := not_or.1 hearly
  have hengine : c.state.engine = none := not_not.1 hengine
  have hfactory : c.state.sessionLocal = none := by
    cases hf : c.state.sessionLocal with
    | none => rfl
    | some f => exact absurd hengine (hkept.inv f hf).2
  obtain ⟨k₁, k₂, hp, hnone⟩ := early_steps hcall
  have hbegun : c.put i (program call) = c.solo i c.state none (.op .getSessionLocal k₁) := by
    rw [← hp, ← hfree]
    rfl
  have hlook : Step (fun _ _ => False) (c.solo i c.state none (.op .getSessionLocal k₁))
      (c.solo i c.state none (.await .acquire fun _ => .op .getSessionLocal k₂)) := by
    rw [← hnone]
    exact .solo_op c ⟨hfactory.symm, rfl⟩
  refine ⟨c.solo i c.state (some i) (.op .getSessionLocal k₂), ?_, fun c'' => Stuck.never_ends ?_⟩
  · rw [hbegun]
    exact .head hlook (.single (.solo_acquire c))
  have hagain := program_asksAgain call
  rw [hp] at hagain
  have hagain := hagain.2 none
  rw [hnone] at hagain
  obtain ⟨k₃, k₄, hnone₂, hnone₃⟩ := hagain.here _ k₂ rfl rfl
  refine ⟨rfl, hengine, hfactory, .inl ⟨k₂, k₃, k₄, Config.put_self .., hnone₂, hnone₃⟩,
    fun j hj p hp => ?_⟩
  rw [Config.solo, Config.put_of_ne _ hj] at hp
  have hok := hkept.ok j p hp
  rw [hfree] at hok
  exact hok.imp fun _ _ _ => trivial

end Teamspace.Api.LazyDatabase
