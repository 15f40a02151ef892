import NodeSwitcher.Proofs.Preselection
import NodeSwitcher.Proofs.Supersession
import NodeSwitcher.Proofs.Feedback
import NodeSwitcher.Proofs.OptionLists
/-!
# What a load writes

A load takes its ticket, records and sends its request at once (`loadStart`), waits for the
answer while other threads run, checks its ticket against the world the answer arrived in, and
ends without waiting again (`loadEnd`). `load_span` states this of every load, in any thread and
whatever the other threads do (`LoadSpan`): the entries it adds to the log, and its result, as
functions of what the server answered and of what the check found.

The check and the end change the world at once, with no other thread between
(`World.replay_loadEnd`): a load found stale only reports it; one found current after a fault
sets its list's error marker to the fault's message and leaves the rest of the page as it was;
one found current with a list of choices replaces its list's entries, selects the last entry
with the pre-selected value if there is one and else the first, and clears the marker.
`load_writes_when_current` puts this together with what a fetch makes of the server's answer
(`choicesOf`) and with the text of a status fault.
-/

namespace NodeSwitcher

open Program

/-! ### The marker of a status fault -/

namespace Text

theorem dropBlank_eq_nil_iff {cs : List Char} : dropBlank cs = [] ↔ cs.all isBlank = true := by
  induction cs with
  | nil => simp [dropBlank]
  | cons c cs ih => by_cases hc : isBlank c <;> simp [dropBlank, hc, ih]

/-- What is left after the leading blanks starts with a character that is not blank. -/
theorem dropBlank_all_blank {cs : List Char} (h : (dropBlank cs).all isBlank = true) :
    dropBlank cs = [] := by
  induction cs with
  | nil => rfl
  | cons c cs ih =>
    by_cases hc : isBlank c
    · simp only [dropBlank, hc, if_true] at h ⊢
      exact ih h
    · simp [dropBlank, hc] at h

/-- Nothing is left after trimming exactly when the text is all blank. -/
theorem trimBlank_isEmpty (s : String) : (trimBlank s).isEmpty = allBlank s := by
  have hnil : dropBlank (dropBlank s.toList).reverse = [] ↔ allBlank s = true := by
    rw [dropBlank_eq_nil_iff, List.all_reverse, allBlank]
    exact ⟨fun h => dropBlank_eq_nil_iff.mp (dropBlank_all_blank h),
      fun h => by rw [dropBlank_eq_nil_iff.mpr h]; rfl⟩
  rw [Bool.eq_iff_iff, String.isEmpty_iff, trimBlank, ← String.toList_inj, String.toList_ofList,
    String.toList_empty, List.reverse_eq_nil_iff, hnil]

end Text

/-- A status fault shows only its code when the body is all blank, and otherwise its code and
the body without the blanks at its ends. -/
theorem Fault.message_status (code : UInt16) (body : String) :
    (Fault.status code body).message =
      if Text.allBlank body then "HTTP " ++ toString code
      else "HTTP " ++ toString code ++ ": " ++ Text.trimBlank body := by
  show (if (Text.trimBlank body).isEmpty then _ else _) = _
  rw [Text.trimBlank_isEmpty]

/-! ### What a fetch makes of the answer -/

theorem isSuccess_iff (status : UInt16) :
    isSuccess status = true ↔ 200 ≤ status.toNat ∧ status.toNat < 300 := by
  unfold isSuccess
  simp only [Bool.and_eq_true, decide_eq_true_eq, UInt16.le_iff_toNat_le, UInt16.lt_iff_toNat_lt]
  rfl

/-- A fetch passes on a transport fault, makes a status fault of an answer outside 200 to 299
with the body as it came, whatever the body, and decodes the body of any other answer. -/
theorem choicesOf_cases :
    (∀ m, choicesOf (.error (.transport m)) = .error (.transport m)) ∧
    (∀ status body, isSuccess status = false →
      choicesOf (.ok ⟨status, body⟩) = .error (.status status body)) ∧
    (∀ status body, isSuccess status = true →
      choicesOf (.ok ⟨status, body⟩) = decodeChoices body) := by
  refine ⟨fun m => rfl, fun status body h => ?_, fun status body h => ?_⟩
  · simp [choicesOf, h]
  · simp [choicesOf, h]

/-! ### The entries of a load -/

/-- The entries with which a load of `s` at `π` begins, all at once: it takes a ticket, records
its request and sends it. -/
def loadStart (π : Path) (s : Selector) (r : Request) : List Entry :=
  [(π, .inl (.beginLoad s)), (π, .inl (.record (.fetching r.path r.query))), (π, .inl (.send r))]

theorem loadEntries_eq (π : Path) (s : Selector) (r : Request) (tk : Ticket) (mid fin : List Entry) :
    loadEntries π s r tk mid fin = loadStart π s r ++ mid ++ (π, .inl (.isCurrent s tk)) :: fin := by
  simp [loadEntries, loadStart]

/-- How a load of `s` at `π` with ticket `tk` and pre-selection `pre` ends, having found its
ticket current or not, with the result of its fetch: the entries it adds and what it returns.
Stale, it only reports it; current, it marks its list after a fault, or fills it and clears the
marker. -/
def loadEnd (π : Path) (s : Selector) (tk : Ticket) (pre : Option String) :
    Bool → Except Fault (List Choice) → List Entry × Except Fault LoadOutcome
  | false, _ => ([(π, .inl (.record (.superseded s tk)))], .ok .superseded)
  | true, .error f =>
    ([(π, .inl (.record (.loadFailed s f))), (π, .inl (.setError s (some f.message)))], .error f)
  | true, .ok cs =>
    ([(π, .inl (.replaceOptions s cs (pre.bind (lastMatch cs)))), (π, .inl (.setError s none))],
      .ok (.applied cs.length))

/-- The world a load of `s` at `π` with request `r`, begun in `t`, finds when its answer arrives
after other threads asked `mid`. -/
def Traced.arrival (t : Traced) (π : Path) (s : Selector) (r : Request) (mid : List Entry) : World :=
  t.world.replay (loadStart π s r ++ mid)

/-- A load of list `s` at thread `π`, with request `r` and pre-selection `pre`, run from `t` to
`t'` and ending with `res`. It took its ticket from `t`'s count and sent `r` at once; while it
waited only threads outside its subtree asked, `mid`; then it checked its ticket in the world
its answer arrived in, and ended as `loadEnd` says for what the check found and for the answer
of `t`'s server to `r`. -/
def LoadSpan (π : Path) (s : Selector) (r : Request) (pre : Option String) (mid : List Entry)
    (t t' : Traced) (res : Except Fault LoadOutcome) : Prop :=
  let tk := (t.world.generation s).begin.1
  let fin := loadEnd π s tk pre (((t.arrival π s r mid).generation s).isCurrent tk)
    (choicesOf (t.world.server.answer r))
  (∀ x ∈ mid, ¬ π <+: x.1) ∧ t'.start = t.start ∧
    t'.log = t.log ++ loadEntries π s r tk mid fin.1 ∧ res = fin.2

/-- Every load runs as `LoadSpan` says, whatever the other threads do, among threads that keep
an invariant `I` which holds once the load has sent its request: the load waits only there. -/
theorem load_span_keeps {I : Traced → Prop} (s : Selector) (r : Request) (pre : Option String)
    (π : Path) (t : Traced)
    (hI : I ((t.perform π (.beginLoad s)).performAll π [.record (.fetching r.path r.query), .send r])) :
    WP Traced.answer I π (Task.load s r pre).widen t fun res t' =>
      ∃ mid, LoadSpan π s r pre mid t t' res := by
  refine wp_load.mpr (Await.of_rely hI fun t' hR => ?_)
  obtain ⟨mid, hs, hl, hmid⟩ := Traced.moves hR
  simp only [Traced.performAll_cons, Traced.performAll_nil, Traced.perform_log,
    Traced.perform_start] at hs hl
  -- the check reads the world the answer arrived in
  have hw : t'.world = t.arrival π s r mid := by
    simp only [Traced.world, Traced.arrival, hs, hl, World.replay_append, loadStart,
      List.append_assoc, List.cons_append, List.nil_append]
  have done : ∀ t'', t''.start = t'.start →
      t''.log = t'.log ++ (π, .inl (.isCurrent s (t.world.generation s).begin.1)) ::
        (loadEnd π s (t.world.generation s).begin.1 pre
          (((t.arrival π s r mid).generation s).isCurrent (t.world.generation s).begin.1)
          (choicesOf (t.world.server.answer r))).1 →
      ∀ res, res = (loadEnd π s (t.world.generation s).begin.1 pre
          (((t.arrival π s r mid).generation s).isCurrent (t.world.generation s).begin.1)
          (choicesOf (t.world.server.answer r))).2 →
      ∃ mid, LoadSpan π s r pre mid t t'' res := by
    intro t'' hs' hl' res hres
    refine ⟨mid, hmid, hs'.trans hs, ?_, hres⟩
    rw [hl', hl, loadEntries_eq]
    simp [loadStart]
  dsimp only
  rw [hw]
  split
  · next hc =>
    split
    · next f ha =>
      refine done _ (by simp) ?_ _ ?_
      · simp [hc, ha, loadEnd]
      · simp [hc, ha, loadEnd]
    · next cs ha =>
      refine done _ (by simp) ?_ _ ?_
      · simp [hc, ha, loadEnd]
      · simp [hc, ha, loadEnd]
  · next hc =>
    have hc' : ((t.arrival π s r mid).generation s).isCurrent (t.world.generation s).begin.1 = false :=
      Bool.eq_false_iff.mpr hc
    refine done _ (by simp) ?_ _ ?_
    · simp [hc', loadEnd]
    · simp [hc', loadEnd]

/-- Every load runs as `LoadSpan` says, whatever the other threads do. -/
theorem load_span (s : Selector) (r : Request) (pre : Option String) (π : Path) (t : Traced) :
    WP Traced.answer (fun _ => True) π (Task.load s r pre).widen t fun res t' =>
      ∃ mid, LoadSpan π s r pre mid t t' res :=
  load_span_keeps s r pre π t trivial

/-! ### The world a load leaves -/

/-- The check and the end of a load, from the world its answer arrived in. -/
theorem World.replay_loadEnd (W : World) (π : Path) (s : Selector) (tk : Ticket)
    (pre : Option String) (current : Bool) (a : Except Fault (List Choice)) :
    W.replay ((π, .inl (.isCurrent s tk)) :: (loadEnd π s tk pre current a).1) =
      match current, a with
      | false, _ => { W with events := W.events ++ [.superseded s tk] }
      | true, .error f =>
        { W with page := W.page.setError s (some f.message), events := W.events ++ [.loadFailed s f] }
      | true, .ok cs =>
        { W with page := (W.page.modifyList s fun _ =>
            DropDown.replace cs (pre.bind (lastMatch cs))).setError s none } := by
  cases current <;> cases a <;> rfl

/-- The world at the end of a load's span: its arrival world, changed by the check and the end. -/
theorem LoadSpan.world {π : Path} {s : Selector} {r : Request} {pre : Option String}
    {mid : List Entry} {t t' : Traced} {res : Except Fault LoadOutcome}
    (h : LoadSpan π s r pre mid t t' res) :
    t'.world = (t.arrival π s r mid).replay ((π, .inl (.isCurrent s (t.world.generation s).begin.1)) ::
      (loadEnd π s (t.world.generation s).begin.1 pre
        (((t.arrival π s r mid).generation s).isCurrent (t.world.generation s).begin.1)
        (choicesOf (t.world.server.answer r))).1) := by
  obtain ⟨-, hs, hl, -⟩ := h
  simp only [Traced.world, Traced.arrival, hs, hl, World.replay_append, loadEntries_eq,
    List.append_assoc]

/-- Replacing the entries with a pre-selection found among them selects it, and otherwise the
first entry, if there is one. -/
theorem DropDown.replace_lastMatch (cs : List Choice) (pre : Option String) :
    DropDown.replace cs (pre.bind (lastMatch cs)) =
      ⟨cs, (pre.bind (lastMatch cs)).or (if cs = [] then none else some 0)⟩ := by
  cases pre with
  | none => cases cs <;> rfl
  | some wanted =>
    cases h : lastMatch cs wanted with
    | none => cases cs <;> simp [DropDown.replace, h]
    | some i =>
      obtain ⟨hi, -, -⟩ := lastMatch_eq_some_iff.mp h
      simp [DropDown.replace, h, hi]

section Page

variable (p : Page) (s s' : Selector)

@[simp] theorem Page.list_setError (m : Option String) : (p.setError s m).list s' = p.list s' := by
  cases s <;> cases s' <;> rfl

@[simp] theorem Page.error_setError (m : Option String) :
    (p.setError s m).error s' = if s = s' then m else p.error s' := by
  cases s <;> cases s' <;> rfl

@[simp] theorem Page.list_modifyList (f : DropDown → DropDown) :
    (p.modifyList s f).list s' = if s = s' then f (p.list s) else p.list s' := by
  cases s <;> cases s' <;> rfl

@[simp] theorem Page.error_modifyList (f : DropDown → DropDown) :
    (p.modifyList s f).error s' = p.error s' := by
  cases s <;> cases s' <;> rfl

end Page

/-- A load of a list that finds its ticket current when its answer arrives, in any thread and
whatever the other threads do. A fetch passes on a transport fault, makes a status fault of an
answer outside 200 to 299 with the body as it came, and otherwise decodes the body, a body that
is no option list giving a decoding fault; a status fault shows `HTTP` and its code, followed by
the trimmed body unless the body is all blank. After a fault the load returns it, sets its
list's error marker to the fault's message, reports it, and changes nothing else in the world its
answer arrived in. After a list of choices it returns their number, replaces its list's entries
with them in order, selects the last entry with the pre-selected value if there is one and else
the first entry, if any, clears the marker, and changes nothing else. -/
theorem load_writes_when_current (s : Selector) (r : Request) (pre : Option String) (π : Path)
    (t : Traced) :
    (∀ m, choicesOf (.error (.transport m)) = .error (.transport m)) ∧
    (∀ status body, isSuccess status = false →
      choicesOf (.ok ⟨status, body⟩) = .error (.status status body)) ∧
    (∀ status body, isSuccess status = true →
      choicesOf (.ok ⟨status, body⟩) = decodeChoices body ∧
        ∀ f, decodeChoices body = .error f → ∃ detail, f = .decode detail) ∧
    (∀ code body, (Fault.status code body).message =
      if Text.allBlank body then "HTTP " ++ toString code
      else "HTTP " ++ toString code ++ ": " ++ Text.trimBlank body) ∧
    WP Traced.answer (fun _ => True) π (Task.load s r pre).widen t fun res t' =>
      ∃ mid, LoadSpan π s r pre mid t t' res ∧
        let W := t.arrival π s r mid
        ((W.generation s).isCurrent (t.world.generation s).begin.1 = true →
          match choicesOf (t.world.server.answer r) with
          | .error f => res = .error f ∧
            t'.world = { W with page := W.page.setError s (some f.message),
                                events := W.events ++ [.loadFailed s f] }
          | .ok cs => res = .ok (.applied cs.length) ∧
            t'.world = { W with page := (W.page.modifyList s fun _ =>
              ⟨cs, (pre.bind (lastMatch cs)).or (if cs = [] then none else some 0)⟩).setError s none }) := by
  obtain ⟨htransport, hstatus, hsuccess⟩ := choicesOf_cases
  refine ⟨htransport, hstatus, fun status body h => ⟨hsuccess status body h,
    fun f hf => decodeChoices_error hf⟩, Fault.message_status, ?_⟩
  refine (load_span s r pre π t).mono fun res t' ⟨mid, h⟩ => ⟨mid, h, fun hc => ?_⟩
  have hw := h.world
  obtain ⟨-, -, -, hres⟩ := h
  rw [hc, World.replay_loadEnd] at hw
  rw [hc] at hres
  cases ha : choicesOf (t.world.server.answer r) with
  | error f =>
    rw [ha] at hw hres
    exact ⟨hres, hw⟩
  | ok cs =>
    rw [ha] at hw hres
    exact ⟨hres, by rw [hw, ← DropDown.replace_lastMatch]⟩

end NodeSwitcher
