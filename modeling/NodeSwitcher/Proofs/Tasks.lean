import NodeSwitcher.Proofs.Trace
/-!
# What each task does, in the traced world

One lemma per task gives its weakest precondition in the traced world, so that later proofs
cite it and never unfold the task: the commands the task performs at its thread, in order, and
the one point where it may wait, for the server's answer to its request (`Await`). Everything
between two waits happens at once, with no other thread in between.

* `wp_fetchChoices`: record the fetch, send the request, and make the result of the answer
  (`choicesOf`).
* `wp_load`: take a ticket, fetch; once the answer arrived, check the ticket, and end as the
  check says: superseded, failed, or applied.
* `wp_loadNodes`, `wp_cascade`, `wp_loadCountries`, `wp_setUp`: the loads of the lists.
* `wp_submit`: read the node, and either refuse it at once, or show the loading indicator, send
  the change, hide the indicator once the answer arrived, and act on it.
* `wp_task`, `wp_performOp`, `wp_arrange`: the operations of a session around them.

`Task.asks_load` and its neighbours say which kinds of command each task may ask at all: the
loads only read and fill lists and ask the server (`loadKinds`), a submission only reads the
node, shows or hides the loading indicator, alerts and reloads (`submitKinds`), and a fetch
only records and sends (`fetchKinds`).
-/

namespace NodeSwitcher

open Program

namespace Program

variable {Q : Type} {A : Q → Type}

@[simp] theorem bind_eq {α β : Type} (p : Program A α) (f : α → Program A β) :
    p >>= f = p.bind f := rfl

@[simp] theorem pure_eq {α : Type} (a : α) : (Pure.pure a : Program A α) = .pure a := rfl

@[simp] theorem widen_bind {R : Type} {B : R → Type} {α β : Type} (p : Program A α)
    (f : α → Program A β) : (p.bind f).widen (B := B) = p.widen.bind fun a => (f a).widen := by
  induction p with
  | pure a => rfl
  | ask q next ih =>
    simp only [Program.bind, widen]
    congr 1
    funext x
    exact ih x f
  | wait next ih => simp only [Program.bind, widen, ih]
  | both first second next _ _ ih₃ =>
    simp only [Program.bind, widen]
    congr 1
    funext b c
    exact ih₃ b c f

end Program

namespace Traced

/-- Performs a command at thread `π`, logging it. -/
def perform (π : Path) (c : Command) (t : Traced) : Traced :=
  (Traced.answer π (.inl c) t).1

@[simp] theorem perform_start (π : Path) (c : Command) (t : Traced) :
    (t.perform π c).start = t.start := rfl

/-- Performs commands at thread `π` in order, logging each. -/
def performAll (π : Path) (cs : List Command) (t : Traced) : Traced :=
  cs.foldl (fun t c => t.perform π c) t

@[simp] theorem perform_log (π : Path) (c : Command) (t : Traced) :
    (t.perform π c).log = t.log ++ [(π, .inl c)] := rfl

@[simp] theorem perform_world (π : Path) (c : Command) (t : Traced) :
    (t.perform π c).world = (World.perform c t.world).1 := by
  simp [perform, Traced.answer, Traced.world, World.answer]

@[simp] theorem performAll_nil (π : Path) (t : Traced) : t.performAll π [] = t := rfl

@[simp] theorem performAll_cons (π : Path) (c : Command) (cs : List Command) (t : Traced) :
    t.performAll π (c :: cs) = (t.perform π c).performAll π cs := rfl

end Traced

variable {I : Traced → Prop} {π : Path} {t : Traced}

theorem wp_command {α : Type} {c : Command} {next : c.Reply → Script α}
    {Φ : α → Traced → Prop} :
    WP Traced.answer I π (.ask (.inl c) next) t Φ ↔
      Await Traced.answer I π (World.perform c t.world).2.2 (t.perform π c)
        fun t' => WP Traced.answer I π (next (World.perform c t.world).2.1) t' Φ :=
  Iff.rfl

section Commands

variable {k : Unit → Traced → Prop}

@[simp] theorem wp_pure {α : Type} {a : α} {Φ : α → Traced → Prop} :
    WP Traced.answer I π (Program.pure a : Task α).widen t Φ ↔ Φ a t := Iff.rfl

@[simp] theorem wp_selectedValue {s : Selector} {k : String → Traced → Prop} :
    WP Traced.answer I π (Task.selectedValue s).widen t k ↔
      k (t.world.page.list s).selectedValue (t.perform π (.selectedValue s)) := Iff.rfl

@[simp] theorem wp_optionValues {s : Selector} {k : List String → Traced → Prop} :
    WP Traced.answer I π (Task.optionValues s).widen t k ↔
      k (t.world.page.list s).values (t.perform π (.optionValues s)) := Iff.rfl

@[simp] theorem wp_selectIndex {s : Selector} {i : Nat} :
    WP Traced.answer I π (Task.selectIndex s i).widen t k ↔ k () (t.perform π (.selectIndex s i)) :=
  Iff.rfl

@[simp] theorem wp_replaceOptions {s : Selector} {cs : List Choice} {pre : Option Nat} :
    WP Traced.answer I π (Task.replaceOptions s cs pre).widen t k ↔
      k () (t.perform π (.replaceOptions s cs pre)) := Iff.rfl

@[simp] theorem wp_setError {s : Selector} {m : Option String} :
    WP Traced.answer I π (Task.setError s m).widen t k ↔ k () (t.perform π (.setError s m)) :=
  Iff.rfl

@[simp] theorem wp_setLoading {b : Bool} :
    WP Traced.answer I π (Task.setLoading b).widen t k ↔ k () (t.perform π (.setLoading b)) :=
  Iff.rfl

@[simp] theorem wp_alert {m : String} :
    WP Traced.answer I π (Task.alert m).widen t k ↔ k () (t.perform π (.alert m)) := Iff.rfl

@[simp] theorem wp_reload : WP Traced.answer I π Task.reload.widen t k ↔ k () (t.perform π .reload) :=
  Iff.rfl

@[simp] theorem wp_beginLoad {s : Selector} {k : Ticket → Traced → Prop} :
    WP Traced.answer I π (Task.beginLoad s).widen t k ↔
      k (t.world.generation s).begin.1 (t.perform π (.beginLoad s)) := Iff.rfl

@[simp] theorem wp_isCurrent {s : Selector} {tk : Ticket} {k : Bool → Traced → Prop} :
    WP Traced.answer I π (Task.isCurrent s tk).widen t k ↔
      k ((t.world.generation s).isCurrent tk) (t.perform π (.isCurrent s tk)) := Iff.rfl

@[simp] theorem wp_record {e : Event} :
    WP Traced.answer I π (Task.record e).widen t k ↔ k () (t.perform π (.record e)) := Iff.rfl

/-- A request waits for the server's answer as many rounds as the server delays it. -/
theorem wp_send {r : Request} {k : Except Fault Response → Traced → Prop} :
    WP Traced.answer I π (Task.send r).widen t k ↔
      Await Traced.answer I π (t.world.server.delayOf r) (t.perform π (.send r))
        (k (t.world.server.answer r)) := Iff.rfl

end Commands

/-- What a fetch makes of the server's answer. -/
def choicesOf : Except Fault Response → Except Fault (List Choice)
  | .error f => .error f
  | .ok response =>
    if isSuccess response.status then decodeChoices response.body
    else .error (.status response.status response.body)

/-- A fetch records what it asks for, sends the request, and makes its result of the answer. -/
theorem Task.fetchChoices_eq (r : Request) :
    Task.fetchChoices r = (Task.record (.fetching r.path r.query)).bind fun _ =>
      (Task.send r).bind fun x => .pure (choicesOf x) := by
  simp only [Task.fetchChoices, bind_eq, pure_eq]
  congr 1
  funext u
  congr 1
  funext x
  cases x with
  | error f => rfl
  | ok response =>
    simp only [choicesOf]
    split <;> rfl

theorem wp_fetchChoices {r : Request} {Φ : Except Fault (List Choice) → Traced → Prop} :
    WP Traced.answer I π (Task.fetchChoices r).widen t Φ ↔
      Await Traced.answer I π (t.world.server.delayOf r)
        (t.performAll π [.record (.fetching r.path r.query), .send r])
        fun t' => Φ (choicesOf (t.world.server.answer r)) t' := by
  rw [Task.fetchChoices_eq]
  simp only [widen_bind, WP.bind, wp_record, wp_send, wp_pure, Traced.performAll_cons,
    Traced.performAll_nil, Traced.perform_world, World.perform_server]

theorem wp_load {s : Selector} {r : Request} {pre : Option String}
    {Φ : Except Fault LoadOutcome → Traced → Prop} :
    WP Traced.answer I π (Task.load s r pre).widen t Φ ↔
      Await Traced.answer I π (t.world.server.delayOf r)
        ((t.perform π (.beginLoad s)).performAll π [.record (.fetching r.path r.query), .send r])
        fun t' =>
          let ticket := (t.world.generation s).begin.1
          let t₂ := t'.perform π (.isCurrent s ticket)
          if (t'.world.generation s).isCurrent ticket then
            match choicesOf (t.world.server.answer r) with
            | .error f =>
              Φ (.error f) (t₂.performAll π [.record (.loadFailed s f), .setError s (some f.message)])
            | .ok cs =>
              Φ (.ok (.applied cs.length)) (t₂.performAll π
                [.replaceOptions s cs (pre.bind (lastMatch cs)), .setError s none])
          else Φ (.ok .superseded) (t₂.perform π (.record (.superseded s ticket))) := by
  simp only [Task.load, bind_eq, pure_eq, widen_bind, WP.bind, wp_beginLoad, wp_fetchChoices,
    wp_isCurrent, Traced.perform_world, World.perform_server]
  refine Await.congr fun t' => ?_
  cases (t'.world.generation s).isCurrent (t.world.generation s).begin.1 with
  | false => rfl
  | true =>
    cases choicesOf (t.world.server.answer r) <;> rfl

theorem wp_loadNodes {e : Endpoints} {Φ : Except Fault LoadOutcome → Traced → Prop} :
    WP Traced.answer I π (Task.loadNodes e).widen t Φ ↔
      WP Traced.answer I π
        (Task.load .node (e.nodeRequest (t.world.page.list .country).selectedValue) none).widen
        (t.perform π (.selectedValue .country)) Φ := by
  simp only [Task.loadNodes, bind_eq, widen_bind, WP.bind, wp_selectedValue]

theorem wp_cascade {e : Endpoints} {area : String} {Φ : Except Fault LoadOutcome → Traced → Prop} :
    WP Traced.answer I π (Task.cascade e area).widen t Φ ↔
      WP Traced.answer I π (Task.load .country (e.countryRequest area) none).widen t
        fun res t' => match res with
          | .error f => Φ (.error f) t'
          | .ok .superseded => Φ (.ok .superseded) t'
          | .ok (.applied n) =>
            WP Traced.answer I π (Task.loadNodes e).widen t' fun res' t'' => match res' with
              | .error f => Φ (.error f) t''
              | .ok _ => Φ (.ok (.applied n)) t'' := by
  simp only [Task.cascade, bind_eq, pure_eq, widen_bind, WP.bind]
  refine WP.congr fun res t' => ?_
  cases res with
  | error f => rfl
  | ok outcome =>
    cases outcome with
    | superseded => rfl
    | applied n =>
      simp only [widen_bind, WP.bind]
      refine WP.congr fun res' t'' => ?_
      cases res' <;> rfl

theorem wp_loadCountries {e : Endpoints} {Φ : Except Fault LoadOutcome → Traced → Prop} :
    WP Traced.answer I π (Task.loadCountries e).widen t Φ ↔
      WP Traced.answer I π (Task.cascade e (t.world.page.list .area).selectedValue).widen
        (t.perform π (.selectedValue .area)) Φ := by
  simp only [Task.loadCountries, bind_eq, widen_bind, WP.bind, wp_selectedValue]

theorem wp_submit {e : Endpoints} {Φ : SubmitOutcome → Traced → Prop} :
    WP Traced.answer I π (Task.submit e).widen t Φ ↔
      let node := (t.world.page.list .node).selectedValue
      let t₁ := t.perform π (.selectedValue .node)
      if Text.allBlank node then Φ .rejected (t₁.perform π (.alert selectNodeMessage))
      else
        Await Traced.answer I π (t.world.server.delayOf (e.changeRequest node))
          (t₁.performAll π [.setLoading true, .send (e.changeRequest node)]) fun t' =>
            let t₂ := t'.perform π (.setLoading false)
            match t.world.server.answer (e.changeRequest node) with
            | .ok response =>
              if response.status = 200 then
                Φ .reloaded (t₂.performAll π [.record (.nodeChanged node), .reload])
              else
                Φ (.refused response.status response.body) (t₂.performAll π
                  [.record (.changeRefused node response.status), .alert response.body])
            | .error f =>
              Φ (.failed f) (t₂.performAll π [.record (.changeFailed node f), .alert submitFailedMessage]) := by
  simp only [Task.submit, bind_eq, pure_eq, widen_bind, WP.bind, wp_selectedValue]
  split
  · simp only [widen_bind, WP.bind, wp_alert, wp_pure]
  · simp only [widen_bind, WP.bind, wp_setLoading, wp_send, Traced.performAll_cons,
      Traced.performAll_nil, Traced.perform_world, World.perform_server]
    refine Await.congr fun t' => ?_
    cases t.world.server.answer (e.changeRequest (t.world.page.list .node).selectedValue) with
    | ok response =>
      dsimp only
      split <;> rfl
    | error f => rfl

theorem wp_setUp {e : Endpoints} {c : PageConfig} {Φ : Except Fault Unit → Traced → Prop} :
    WP Traced.answer I π (Task.setUp e c).widen t Φ ↔
      match c.areaPath with
      | .error f => Φ (.error f) t
      | .ok path =>
        let t₁ := t.perform π (.optionValues .area)
        let t₂ := match firstMatch (t.world.page.list .area).values path.area with
          | some i => t₁.perform π (.selectIndex .area i)
          | none => t₁.perform π (.record (.areaNotOffered path.area))
        match path.country with
        | none =>
          WP Traced.answer I π (Task.cascade e path.area).widen
            (t₂.perform π (.record (.plainCascade c.nodeAreaId))) fun res t' =>
              Φ (res.map fun _ => ()) t'
        | some country =>
          WP Traced.answer I π (Program.pair
              (Task.load .country (e.countryRequest path.area) (some country))
              (Task.load .node (e.nodeRequest country) (some c.nodeId))).widen t₂
            fun res t' => Φ (do let _ ← res.1; let _ ← res.2; pure ()) t' := by
  simp only [Task.setUp, bind_eq, pure_eq]
  rcases hc : c.areaPath with f | path
  · rfl
  · simp only [widen_bind, WP.bind, wp_optionValues]
    cases firstMatch (t.world.page.list .area).values path.area <;> cases path.country <;>
      simp only [widen_bind, WP.bind, wp_selectIndex, wp_record, wp_pure]

theorem wp_task {α : Type} {tk : Task α} {f : α → Outcome} {Φ : Outcome → Traced → Prop} :
    WP Traced.answer I π (Script.task tk f) t Φ ↔
      WP Traced.answer I π tk.widen t fun a t' => Φ (f a) t' := by
  simp only [Script.task, WP.bind]
  rfl

/-- A list operation of a session performs its command at once. -/
theorem wp_performOp {c : Command} (hc : ∀ w, (World.perform c w).2.2 = 0)
    {Φ : Outcome → Traced → Prop} :
    WP Traced.answer I π (Script.perform c) t Φ ↔ Φ .done (t.perform π c) := by
  simp only [Script.perform, WP, Traced.answer, World.answer, hc, Await, if_true]
  rfl

/-- What the user does besides, in the traced world: logged at the thread, answered by the
world. -/
def Traced.arrange (π : Path) (a : Setup) (t : Traced) : Traced :=
  (Traced.answer π (.inr a) t).1

/-- A page or server operation of a session happens at once. -/
theorem wp_arrange {a : Setup} {Φ : Outcome → Traced → Prop} :
    WP Traced.answer I π (Script.arrange a) t Φ ↔ Φ .done (t.arrange π a) := by
  cases a <;> rfl

/-! ### Which commands each task may ask -/

/-- What a command does, without its arguments. -/
inductive CommandKind where
  | selectedValue | optionValues | selectIndex | replaceOptions | setError | setLoading | alert
  | reload | beginLoad | isCurrent | send | record
  deriving DecidableEq, Repr

/-- The kind of a command. -/
@[simp] def Command.kind : Command → CommandKind
  | .selectedValue _ => .selectedValue
  | .optionValues _ => .optionValues
  | .selectIndex _ _ => .selectIndex
  | .replaceOptions _ _ _ => .replaceOptions
  | .setError _ _ => .setError
  | .setLoading _ => .setLoading
  | .alert _ => .alert
  | .reload => .reload
  | .beginLoad _ => .beginLoad
  | .isCurrent _ _ => .isCurrent
  | .send _ => .send
  | .record _ => .record

/-- The kinds of command the loads of the lists use. -/
def loadKinds : List CommandKind :=
  [.selectedValue, .optionValues, .selectIndex, .replaceOptions, .setError, .beginLoad, .isCurrent,
    .send, .record]

/-- The kinds of command a fetch uses. -/
def fetchKinds : List CommandKind :=
  [.send, .record]

theorem fetchKinds_sub : ∀ k ∈ fetchKinds, k ∈ loadKinds := by decide

/-- The kinds of command a submission uses. -/
def submitKinds : List CommandKind :=
  [.selectedValue, .setLoading, .alert, .reload, .send, .record]

section Kinds

theorem Task.asks_fetchChoices (r : Request) :
    Asks (fun c => c.kind ∈ fetchKinds) (Task.fetchChoices r) := by
  rw [Task.fetchChoices_eq]
  exact Asks.bind (.command (by simp [fetchKinds])) fun _ =>
    Asks.bind (.command (by simp [fetchKinds])) fun _ => .pure _

theorem Task.asks_load (s : Selector) (r : Request) (pre : Option String) :
    Asks (fun c => c.kind ∈ loadKinds) (Task.load s r pre) := by
  simp only [Task.load, bind_eq, pure_eq]
  refine Asks.bind (.command (by simp [loadKinds])) fun ticket => ?_
  refine Asks.bind ((Task.asks_fetchChoices r).mono fun c hc => fetchKinds_sub c.kind hc)
    fun result => ?_
  refine Asks.bind (.command (by simp [loadKinds])) fun current => ?_
  split
  · exact Asks.bind (.command (by simp [loadKinds])) fun _ => .pure _
  · split
    · exact Asks.bind (.command (by simp [loadKinds])) fun _ =>
        Asks.bind (.command (by simp [loadKinds])) fun _ => .pure _
    · exact Asks.bind (.command (by simp [loadKinds])) fun _ =>
        Asks.bind (.command (by simp [loadKinds])) fun _ => .pure _

theorem Task.asks_loadNodes (e : Endpoints) :
    Asks (fun c => c.kind ∈ loadKinds) (Task.loadNodes e) :=
  Asks.bind (.command (by simp [loadKinds])) fun _ => Task.asks_load _ _ _

theorem Task.asks_cascade (e : Endpoints) (area : String) :
    Asks (fun c => c.kind ∈ loadKinds) (Task.cascade e area) := by
  simp only [Task.cascade, bind_eq, pure_eq]
  refine Asks.bind (Task.asks_load _ _ _) fun res => ?_
  split
  · exact .pure _
  · exact .pure _
  · exact Asks.bind (Task.asks_loadNodes e) fun res' => by split <;> exact .pure _

theorem Task.asks_loadCountries (e : Endpoints) :
    Asks (fun c => c.kind ∈ loadKinds) (Task.loadCountries e) :=
  Asks.bind (.command (by simp [loadKinds])) fun _ => Task.asks_cascade _ _

theorem Task.asks_setUp (e : Endpoints) (c : PageConfig) :
    Asks (fun c => c.kind ∈ loadKinds) (Task.setUp e c) := by
  simp only [Task.setUp, bind_eq, pure_eq]
  split
  · exact .pure _
  · refine Asks.bind (.command (by simp [loadKinds])) fun values => ?_
    have tail : ∀ path : AreaPath, Asks (fun c => c.kind ∈ loadKinds) (match path.country with
        | none => Program.bind (Task.record (.plainCascade c.nodeAreaId)) fun _ =>
            Program.bind (Task.cascade e path.area) fun r => Program.pure (r.map fun _ => ())
        | some country => (Program.pair
            (Task.load .country (e.countryRequest path.area) (some country))
            (Task.load .node (e.nodeRequest country) (some c.nodeId))).bind fun x =>
              Program.pure (do let _ ← x.1; let _ ← x.2; pure ())) := by
      intro path
      split
      · exact Asks.bind (.command (by simp [loadKinds])) fun _ =>
          Asks.bind (Task.asks_cascade _ _) fun _ => .pure _
      · exact Asks.bind (.both (Task.asks_load _ _ _) (Task.asks_load _ _ _) fun _ _ => .pure _)
          fun _ => .pure _
    split
    · exact Asks.bind (.command (by simp [loadKinds])) fun _ => tail _
    · exact Asks.bind (.command (by simp [loadKinds])) fun _ => tail _

theorem Task.asks_submit (e : Endpoints) :
    Asks (fun c => c.kind ∈ submitKinds) (Task.submit e) := by
  simp only [Task.submit, bind_eq, pure_eq]
  refine Asks.bind (.command (by simp [submitKinds])) fun node => ?_
  split
  · exact Asks.bind (.command (by simp [submitKinds])) fun _ => .pure _
  · refine Asks.bind (.command (by simp [submitKinds])) fun _ => ?_
    refine Asks.bind (.command (by simp [submitKinds])) fun result => ?_
    refine Asks.bind (.command (by simp [submitKinds])) fun _ => ?_
    split
    · split
      · exact Asks.bind (.command (by simp [submitKinds])) fun _ =>
          Asks.bind (.command (by simp [submitKinds])) fun _ => .pure _
      · exact Asks.bind (.command (by simp [submitKinds])) fun _ =>
          Asks.bind (.command (by simp [submitKinds])) fun _ => .pure _
    · exact Asks.bind (.command (by simp [submitKinds])) fun _ =>
        Asks.bind (.command (by simp [submitKinds])) fun _ => .pure _

end Kinds

end NodeSwitcher
