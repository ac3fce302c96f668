import ObjcBinding.Environment.Request

/-!
# The strategy of a process

A process settles its strategy once. The first request for one decides, whatever it is, and all
later ones are measured against it. A refused request may leave something behind all the same: its
log level is in force before the strategies are compared.

* `Environment.answer_setup`, `Environment.standing_setup`: what a request for a strategy is
  answered, and what it leaves behind;
* `Environment.active_after`: a strategy that is settled stays;
* `strategy_settled`: how every run of requests goes on, and exactly which refused requests leave no
  trace.
-/

namespace ObjcBinding

theorem Settings.parseTarget_display (t : Target) : Settings.parseTarget t.display = .ok t :=
  parseTarget_eq_ok_iff.2 t.parse_display

/-! ## Requests for a strategy -/

/-- A request that needs the strategy of the process. -/
inductive Setup where
  | choose (t : Target)
  | openCompilation (s : Settings) (renders : Bool)
  deriving DecidableEq, Repr

namespace Setup

/-- What the strategy is to be for, and the log level that is to be in force. -/
def settings : Setup → Settings
  | choose t => { target := t }
  | openCompilation s _ => s

/-- The strategy that is called for. -/
def requested (x : Setup) : Strategy := Strategy.forTarget x.settings.target

/-- The request as it is put to the environment. -/
def request : Setup → EnvironmentRequest
  | choose t => .choose t.display
  | openCompilation s renders => .openCompilation s.target.display (s.logLevel.map (·.name)) renders

/-- The reply if `s` is the strategy of the process. -/
def reply (s : Strategy) : Setup → EnvironmentReply
  | choose _ => .strategy (some s)
  | openCompilation _ renders => .opened { Compilation.new s renders with log := #[] }

end Setup

namespace Environment

variable (e : Environment)

/-! ## The steps of an answer -/

/-- The second step is taken if the first one is not refused. -/
theorem Step.run_bind {α β : Type} (x : Step α) (f : α → Step β)
    (s : Environment × List Log.Message) :
    (x >>= f).run s = match x.run s with
      | (Except.ok a, t) => (f a).run t
      | (Except.error err, t) => (Except.error err, t) := by
  change ExceptT.bindCont f (x.run s).1 (x.run s).2 = _
  rcases x.run s with ⟨_ | _, _⟩ <;> rfl

/-- What a failed change has done to the environment is not undone. -/
theorem Step.run_settle {α : Type} (f : Environment → Except ConfigError α × Environment)
    (messages : List Log.Message) :
    (Step.settle f).run (e, messages) =
      ((f e).1.mapError EnvironmentRefusal.config, ((f e).2, messages)) := by
  -- the change is asked for at `e` only
  change (Step.settle fun _ => f e).run (e, messages) = _
  generalize f e = r
  rcases r with ⟨_ | _, _⟩ <;> rfl

theorem Step.mapM_readLevelName (level : Option Log.Level) :
    (level.map (·.name)).mapM Step.readLevelName = pure level := by
  cases level with
  | none => rfl
  | some l =>
    change (Step.readLevelName l.name >>= fun l => pure (some l)) = _
    rw [Step.readLevelName, Log.Level.parse_name, pure_bind]

/-- Every request for a strategy first puts its log level in force, and then chooses. -/
theorem Step.run_setup (x : Setup) :
    let chosen := (e.apply x.settings).choose x.settings.target
    ∃ messages, (Step.of x.request).run (e, []) =
      ((chosen.1.map (x.reply ·)).mapError .config, (chosen.2, messages)) := by
  intro chosen
  cases x with
  | choose t =>
    simp only [Setup.request, Step.of, Step.readTarget, Settings.parseTarget_display, pure_bind]
    change ∃ messages, (Step.settle (·.choose t) >>= fun s =>
      pure (EnvironmentReply.strategy (some s))).run (e, e.choiceMessages t) = _
    have hchoose : e.choose t = chosen := rfl
    rw [Step.run_bind, Step.run_settle, hchoose]
    cases chosen.1 <;> exact ⟨_, rfl⟩
  | openCompilation s renders =>
    simp only [Setup.request, Step.of, Step.readTarget, Settings.parseTarget_display, pure_bind,
      Step.mapM_readLevelName]
    change ∃ messages, (Step.settle (·.openCompilation s renders) >>= fun c => do
      Step.say c.log.toList
      pure (EnvironmentReply.opened { c with log := #[] })).run
        (e, e.choiceMessages s.target) = _
    have hopen : e.openCompilation s renders =
      (chosen.1.map (Compilation.new · renders), chosen.2) := rfl
    rw [Step.run_bind, Step.run_settle, hopen]
    cases chosen.1 <;> exact ⟨_, rfl⟩

/-! ## What a request does -/

/-- What requests for a strategy can change: the strategy, if there is one, and the log level. -/
def standing : Option Strategy × Log.Level := (e.active, e.level)

theorem standing_write (messages : List Log.Message) :
    (e.write messages).2.standing = e.standing := by
  unfold write
  split <;> rfl

theorem active_apply (s : Settings) : (e.apply s).active = e.active := by
  unfold apply
  cases s.logLevel <;> rfl

theorem level_apply (s : Settings) : (e.apply s).level = s.logLevel.getD e.level := by
  unfold apply
  cases s.logLevel <;> rfl

theorem standing_choose (t : Target) :
    (e.choose t).2.standing = (some (e.active.getD (Strategy.forTarget t)), e.level) := by
  cases h : e.active with
  | none => simp [choose, h, standing, level, currentLogger, value?]
  | some s => rw [(choose_of_active h t).1, standing, h, Option.getD_some]

theorem choose_outcome (t : Target) :
    (e.choose t).1 =
      if e.active.getD (Strategy.forTarget t) = Strategy.forTarget t then
        .ok (Strategy.forTarget t)
      else .error (.strategyConflict (e.active.getD (Strategy.forTarget t)) (.forTarget t)) := by
  unfold choose
  cases e.active with
  | none => simp
  | some s =>
    simp only [Option.getD_some]
    split
    · rename_i hs
      rw [hs]
    · rfl

/-- A request is granted if it calls for the strategy in force, or if there is none. -/
theorem answer_setup (x : Setup) :
    let s := e.active.getD x.requested
    (e.answer x.request).1 =
      if s = x.requested then .ok (x.reply s)
      else .error (.config (.strategyConflict s x.requested)) := by
  intro s
  obtain ⟨messages, hrun⟩ := Step.run_setup e x
  rw [choose_outcome, active_apply] at hrun
  simp only [answer, hrun]
  change Except.mapError _ (Except.map _ (if s = x.requested then _ else _)) = _
  split
  · rename_i hs
    rw [hs]
    rfl
  · rfl

/-- Whether it is granted or refused, a request leaves its log level behind. -/
theorem standing_setup (x : Setup) :
    (e.answer x.request).2.2.standing =
      (some (e.active.getD x.requested), x.settings.logLevel.getD e.level) := by
  obtain ⟨messages, hrun⟩ := Step.run_setup e x
  simp only [answer, hrun, standing_write, standing_choose, active_apply, level_apply]
  rfl

/-! ## Runs of requests -/

/-- The environment after a run of requests. -/
def after (requests : List Setup) : Environment :=
  requests.foldl (fun e x => (e.answer x.request).2.2) e

theorem active_after {e : Environment} {s : Strategy} (h : e.active = some s)
    (requests : List Setup) : (e.after requests).active = some s := by
  induction requests generalizing e with
  | nil => exact h
  | cons x rest ih =>
    refine ih (e := (e.answer x.request).2.2) ?_
    have hx := congrArg Prod.fst (e.standing_setup x)
    rwa [h] at hx

end Environment

/-- The first request for a strategy is granted, whatever it is, and settles the strategy for all
requests that follow. A later one is granted exactly if it calls for the same strategy; if it is
refused, the answer tells both strategies. A refused request changes the log level, unless it has
none or its level is in force already. -/
theorem strategy_settled {e : Environment} (hfresh : e.active = none) (first : Setup)
    (requests : List Setup) (next : Setup) :
    let s := first.requested
    let d := e.after (first :: requests)
    (e.answer first.request).1 = .ok (first.reply s) ∧ d.active = some s ∧
    (next.requested = s → (d.answer next.request).1 = .ok (next.reply s)) ∧
    (next.requested ≠ s →
      (d.answer next.request).1 = .error (.config (.strategyConflict s next.requested)) ∧
      ((d.answer next.request).2.2.standing = d.standing ↔
        ∀ l, next.settings.logLevel = some l → l = d.level)) := by
  intro s d
  have hfirst := e.standing_setup first
  rw [hfresh] at hfirst
  have hactive : d.active = some s :=
    Environment.active_after (congrArg Prod.fst hfirst) requests
  have hnext := d.answer_setup next
  rw [hactive] at hnext
  refine ⟨?_, hactive, fun hs => ?_, fun hs => ⟨?_, ?_⟩⟩
  · rw [e.answer_setup first, hfresh, Option.getD_none, if_pos rfl]
  · rw [hnext, Option.getD_some, if_pos hs.symm]
  · rw [hnext, Option.getD_some, if_neg (Ne.symm hs)]
  · rw [d.standing_setup next, Environment.standing, hactive, Option.getD_some, Prod.mk.injEq]
    cases next.settings.logLevel with
    | none => simp
    | some l => simp

/-- The strategy is settled by a request for `aarch64-apple-macos`. A compilation for Linux is
refused then, but its log level is in force. -/
theorem strategy_settled_debug :
    let e : Environment := {}
    let first := Setup.choose ⟨.aarch64, .macOs⟩
    let next := Setup.openCompilation { target := ⟨.x86_64, .linux⟩, logLevel := some .debug } false
    let d := e.after [first]
    e.active = none ∧
    ((d.answer next.request).1 = .error (.config (.strategyConflict .functional .inert)) ∧
      (d.answer next.request).2.2.standing ≠ d.standing) := by
  intro e first next d
  obtain ⟨-, -, -, hrefused⟩ :=
    strategy_settled (e := e) rfl first [] next
  obtain ⟨herror, hstanding⟩ := hrefused (by decide)
  refine ⟨rfl, herror, fun h => ?_⟩
  exact absurd (hstanding.1 h .debug rfl) (by decide)

end ObjcBinding
