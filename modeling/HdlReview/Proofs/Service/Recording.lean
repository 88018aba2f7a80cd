import HdlReview.Proofs.Service.Posted

/-!
# Requests that are recorded

The three operations with a path of their own record what they do; nothing else is recorded, and
nothing else changes the state. A request is recorded just if it posts a call to such a path and its
code, if any, is within the limit. Unless the logger refuses entries, all requests to such a path
that are answered with success are recorded, and no response depends on what becomes of the entry.

## Main definitions

* `Call.outcome`, `Call.entry`, `Call.next`: what a call at a path of its own comes to
* `Recordable limit r t call`: the request posts a call of the tool `t` that is recorded
* `State.after config s requests`: the state that some requests leave

## Main results

* `respond_cases`: what can come of a request
* `Recordable.state`, `state_of_not_recordable`, `state_respond_cases`: the state after a request
* `Recordable.response`, `exists_recordable_of_status`: which requests have success
* `line_entry`: the line of a request that is recorded
* `response_eq_of_not_refuses`: the response does not depend on the logger
-/

namespace HdlReview.Tools

open HdlReview.Audit HdlReview.Lint HdlReview.Service

/-- The outcome of a call that a body holds, at the path of its own. -/
def Call.outcome (config : Config) (occasion : Occasion) (s : State)
    (body : Json.Value Text.RawText) : Call → Outcome
  | review q => reviewOutcome config occasion s q
  | timing q => timingOutcome config occasion s ⟨body, q⟩
  | crossing q => crossingOutcome config occasion s ⟨body, q⟩

/-- The entry that is made for a call. -/
def Call.entry (occasion : Occasion) (s : State) : Call → Entry
  | review q =>
    reviewEntry occasion q.language (Lint.review q.language q.code.toList).totalIssues s.elapsed
  | timing _ => adviceEntry occasion "timing"
  | crossing _ => adviceEntry occasion "cdc"

/-- The state after a call and before its entry: a review reads the clock twice. -/
def Call.next (s : State) : Call → State
  | review _ => s.afterReading.afterReading
  | _ => s

end HdlReview.Tools

namespace HdlReview.Service

open HdlReview.Audit HdlReview.Decimal HdlReview.Json HdlReview.Validation HdlReview.Text
open HdlReview.Tools

variable {config : Config} {occasion occasion' : Occasion} {s s' : State} {r : Request}
  {t : Tool} {call : Call} {limit : Int} {body : Value RawText}

/-! ## Calls -/

theorem state_outcome_of_exceeds (h : call.exceeds config.maxCodeLength = true) :
    (call.outcome config occasion s body).state = s := by
  cases call with
  | review q =>
    have hlong : config.maxCodeLength < q.code.length := by simpa [Call.exceeds] using h
    rw [Call.outcome, reviewOutcome, if_pos hlong]
    rfl
  | timing q => cases h
  | crossing q => cases h

theorem state_audit (e : Entry) (o : Outcome) :
    (o.audit config occasion e).state =
      { o.state with directory := config.logger.after occasion.now e o.state.directory } :=
  rfl

/-- **The state after a call** within the limit: its entry was to be recorded. -/
theorem state_outcome (h : call.exceeds config.maxCodeLength = false) :
    (call.outcome config occasion s body).state = { call.next s with
      directory := config.logger.after occasion.now (call.entry occasion s) s.directory } := by
  cases call with
  | review q =>
    have hshort : ¬ config.maxCodeLength < q.code.length := by simpa [Call.exceeds] using h
    rw [Call.outcome, reviewOutcome, if_neg hshort]
    exact state_audit _ _
  | timing q => exact state_audit _ _
  | crossing q => exact state_audit _ _

/-- **The number of issues in an entry** can be written. -/
theorem natAbs_entry_lt {route : Route} (h : Accepted r route call) :
    (call.entry occasion s).totalIssues.natAbs < longBound := by
  have hbound : 0 < longBound := by decide +kernel
  cases call with
  | review q => exact natAbs_totalIssues_lt h.length_code_lt
  | timing q => exact hbound
  | crossing q => exact hbound

/-! ## Operations -/

theorem withBody_read_of {α : Type} {n : Nat} {defect : Defect} {read : Fields → Checked α}
    (make : α → Call) (outcome : Posted Call → Outcome) :
    s.withBody (fun p => outcome ⟨p.body, make p.request⟩) (r.read n defect read) =
      s.withBody outcome (r.read n defect fun fields => Call.of make (read fields)) := by
  cases hd : r.data? with
  | error e => rw [read_of_error hd, read_of_error hd, State.withBody, State.withBody]
  | ok body =>
    by_cases hv : ∃ fields, body.plain = .obj fields
    · obtain ⟨fields, hfields⟩ := hv
      cases hread : read fields with
      | ok a =>
        have hcall : Call.of make (read fields) = .ok (make a) := by rw [hread, Call.of]
        rw [read_of_ok hd hfields hread, read_of_ok hd hfields hcall, State.withBody,
          State.withBody]
      | error fs =>
        have hcall : Call.of make (read fields) = .error fs := by rw [hread, Call.of]
        rw [read_of_faults hd hfields hread, read_of_faults hd hfields hcall, State.withBody,
          State.withBody]
    · have hobject : ∀ fields, body.plain ≠ .obj fields := fun fields h => hv ⟨fields, h⟩
      rw [read_of_not_object hd hobject, read_of_not_object hd hobject, State.withBody,
        State.withBody]

/-- **Operations with a path of their own** read the arguments of a tool and make the call. -/
theorem operate_route (t : Tool) :
    operate config occasion s r t.route =
      s.withBody (fun p => p.request.outcome config occasion s p.body)
        (r.read config.bodyDepth .notBody fun fields => t.readCall (.obj fields)) := by
  cases t with
  | review =>
    exact withBody_read_of Call.review fun p => p.request.outcome config occasion s p.body
  | timing =>
    exact withBody_read_of Call.timing fun p => p.request.outcome config occasion s p.body
  | crossing =>
    exact withBody_read_of Call.crossing fun p => p.request.outcome config occasion s p.body

theorem operate_of_accepted (h : Accepted r t.route call) :
    ∃ body, r.data? = .ok body ∧ ∀ config occasion s,
      operate config occasion s r t.route = call.outcome config occasion s body := by
  obtain ⟨t', body, fields, ht, hd, hfields, hc⟩ := h
  obtain rfl := Option.some.inj ((tool?_route t).symm.trans ht)
  refine ⟨body, hd, fun config occasion s => ?_⟩
  rw [operate_route, read_of_ok hd hfields hc, State.withBody]

/-- A body without a call is answered with a response that does not depend on the logger. -/
theorem exists_answer_of_not_accepted (config : Config) (h : ∀ call, ¬ Accepted r t.route call) :
    ∃ response, ∀ l occasion s,
      operate { config with logger := l } occasion s r t.route = s.answer response := by
  obtain ⟨response, hread⟩ : ∃ response,
      r.read config.bodyDepth .notBody (fun fields => t.readCall (.obj fields)) =
        .error response := by
    cases hd : r.data? with
    | error e => exact ⟨e, read_of_error hd⟩
    | ok body =>
      by_cases hv : ∃ fields, body.plain = .obj fields
      · obtain ⟨fields, hfields⟩ := hv
        cases hc : t.readCall (.obj fields) with
        | ok call => exact absurd ⟨t, body, fields, tool?_route t, hd, hfields, hc⟩ (h call)
        | error fs => exact ⟨_, read_of_faults hd hfields hc⟩
      · exact ⟨_, read_of_not_object hd fun fields h => hv ⟨fields, h⟩⟩
  refine ⟨response, fun l occasion s => ?_⟩
  rw [operate_route, hread, State.withBody]

/-- Operations without a path of their own leave the state as it is, and what they answer does not
depend on the logger. -/
theorem exists_operate_of_ne_route (config : Config) {route : Route}
    (h : ∀ t : Tool, route ≠ t.route) :
    ∃ response records, ∀ l occasion s,
      operate { config with logger := l } occasion s r route = ⟨response, records, s⟩ := by
  cases route with
  | health => exact ⟨_, _, fun _ _ _ => rfl⟩
  | tools => exact ⟨_, _, fun _ _ _ => rfl⟩
  | review => exact absurd rfl (h .review)
  | timing => exact absurd rfl (h .timing)
  | crossing => exact absurd rfl (h .crossing)
  | tool name =>
    simp only [operate]
    cases r.read config.bodyDepth .notObject .ok with
    | error e => exact ⟨_, _, fun _ _ _ => rfl⟩
    | ok p =>
      simp only [State.withBody, toolOutcome]
      cases execute name (.obj p.request) with
      | ok x => exact ⟨_, _, fun _ _ _ => rfl⟩
      | error e => cases e <;> exact ⟨_, _, fun _ _ _ => rfl⟩

/-! ## Requests -/

/-- **What can come of a request**: it posts a call to a path of its own, or the response does not
depend on the logger and the state is left as it is. -/
theorem respond_cases (config : Config) (r : Request) :
    (∃ (t : Tool) (call : Call), Route.ofPath? r.target.path = some t.route ∧
      r.method = "POST" ∧ Accepted r t.route call) ∨
    ∃ response records, ∀ l occasion s,
      respond { config with logger := l } occasion s r = ⟨response, records, s⟩ := by
  cases hp : Route.ofPath? r.target.path with
  | none =>
    -- the request is sent to another target, or nothing is found
    cases ht : slashless? r.target with
    | some target =>
      exact .inr ⟨.redirect target, [], fun l occasion s => by rw [respond, hp, ht]; rfl⟩
    | none => exact .inr ⟨.notFound, [], fun l occasion s => by rw [respond, hp, ht]; rfl⟩
  | some route =>
    by_cases hm : r.method = route.method
    · have hrespond : ∀ config occasion s,
          respond config occasion s r = operate config occasion s r route :=
        fun _ _ _ => respond_of_route hp hm
      by_cases hroute : ∃ t : Tool, route = t.route
      · obtain ⟨t, rfl⟩ := hroute
        by_cases ha : ∃ call, Accepted r t.route call
        · obtain ⟨call, ha⟩ := ha
          exact .inl ⟨t, call, rfl, hm.trans (method_route t), ha⟩
        · obtain ⟨response, hanswer⟩ :=
            exists_answer_of_not_accepted config fun call hc => ha ⟨call, hc⟩
          exact .inr ⟨response, [], fun l occasion s =>
            (hrespond _ occasion s).trans (hanswer l occasion s)⟩
      · obtain ⟨response, records, hoperate⟩ :=
          exists_operate_of_ne_route (r := r) config fun t ht => hroute ⟨t, ht⟩
        exact .inr ⟨response, records, fun l occasion s =>
          (hrespond _ occasion s).trans (hoperate l occasion s)⟩
    · refine .inr ⟨.methodNotAllowed route.method, [], fun l occasion s => ?_⟩
      rw [respond, hp]
      exact if_neg hm

theorem respond_of_accepted (hp : Route.ofPath? r.target.path = some t.route)
    (hm : r.method = "POST") (ha : Accepted r t.route call) :
    ∃ body, r.data? = .ok body ∧ ∀ config occasion s,
      respond config occasion s r = call.outcome config occasion s body := by
  obtain ⟨body, hd, hoperate⟩ := operate_of_accepted ha
  refine ⟨body, hd, fun config occasion s => ?_⟩
  rw [respond_of_route hp (hm.trans (method_route t).symm), hoperate]

/-- **A request that is recorded**: it posts a call of a tool to the path of its own, and the code,
if there is any, is within the limit. -/
structure Recordable (limit : Int) (r : Request) (t : Tool) (call : Call) : Prop where
  path : Route.ofPath? r.target.path = some t.route
  method : r.method = "POST"
  accepted : Accepted r t.route call
  within : call.exceeds limit = false

/-- **The state after a request that is recorded**. -/
theorem Recordable.state (h : Recordable config.maxCodeLength r t call) :
    (respond config occasion s r).state = { call.next s with
      directory := config.logger.after occasion.now (call.entry occasion s) s.directory } := by
  obtain ⟨body, -, hrespond⟩ := respond_of_accepted h.path h.method h.accepted
  rw [hrespond, state_outcome h.within]

/-- **The line of a request that is recorded**. -/
theorem Recordable.line_entry (h : Recordable limit r t call) :
    (call.entry occasion s).line occasion.now =
      .ok (write ((call.entry occasion s).record occasion.now) ++ ['\n']) :=
  Entry.line_of_lt (natAbs_entry_lt h.accepted)

/-- **The response to a request that is recorded**: the result is sent, unless the logger refuses
the entry or a text that the result repeats cannot be sent. -/
theorem Recordable.response (h : Recordable config.maxCodeLength r t call)
    (hd : r.data? = .ok body) :
    (respond config occasion s r).response = config.recorded
      (.repeating 0 (partsAt (repeated call.run.1) body)
        (.sent 200 (sentResult call.run.1).toValue)) := by
  rw [respond_of_route h.path (h.method.trans (method_route t).symm),
    response_of_accepted h.accepted hd, answer_of_not_exceeds (route_ne_tool t) h.within]

theorem status_repeating {limit : Nat} {parts : List (Value RawText)} {status : Nat} {v : Value} :
    (Response.repeating limit parts (.sent status v)).status = status ∨
      (Response.repeating limit parts (.sent status v)).status = 500 := by
  rcases @repeating_eq_or limit parts (.sent status v) with h | h <;> rw [h]
  · exact .inl rfl
  · exact .inr rfl

theorem Recordable.status (h : Recordable config.maxCodeLength r t call) :
    (respond config occasion s r).response.status = 200 ∨
      (respond config occasion s r).response.status = 500 := by
  obtain ⟨body, hd⟩ := h.accepted.exists_data?
  rw [h.response hd, Config.recorded]
  split
  · exact .inr rfl
  · exact status_repeating

/-- **A request that is not recorded** leaves the state as it is. -/
theorem state_of_not_recordable (h : ∀ t call, ¬ Recordable config.maxCodeLength r t call) :
    (respond config occasion s r).state = s := by
  rcases respond_cases config r with ⟨t, call, hp, hm, ha⟩ | ⟨response, records, hrespond⟩
  · -- a call that is not recorded is one of code beyond the limit
    obtain ⟨body, -, hrespond⟩ := respond_of_accepted hp hm ha
    rw [hrespond]
    cases hexceeds : call.exceeds config.maxCodeLength with
    | true => exact state_outcome_of_exceeds hexceeds
    | false => exact absurd ⟨hp, hm, ha, hexceeds⟩ (h t call)
  · exact congrArg Outcome.state (hrespond config.logger occasion s)

/-- **The state after a request**: its entry was to be recorded, or it is left as it is. -/
theorem state_respond_cases (config : Config) (occasion : Occasion) (s : State) (r : Request) :
    (∃ t call, Recordable config.maxCodeLength r t call ∧
      (respond config occasion s r).state = { call.next s with
        directory := config.logger.after occasion.now (call.entry occasion s) s.directory }) ∨
      (∀ t call, ¬ Recordable config.maxCodeLength r t call) ∧
        (respond config occasion s r).state = s := by
  by_cases h : ∃ t call, Recordable config.maxCodeLength r t call
  · obtain ⟨t, call, h⟩ := h
    exact .inl ⟨t, call, h, h.state⟩
  · have hnot : ∀ t call, ¬ Recordable config.maxCodeLength r t call :=
      fun t call hr => h ⟨t, call, hr⟩
    exact .inr ⟨hnot, state_of_not_recordable hnot⟩

/-- **Success at a path of its own** is had by requests that are recorded only. -/
theorem exists_recordable_of_status (hp : Route.ofPath? r.target.path = some t.route)
    (hm : r.method = "POST") (hstatus : (respond config occasion s r).response.status = 200) :
    ∃ call, Recordable config.maxCodeLength r t call := by
  have hpost := method_route t
  rw [respond_of_route hp (hm.trans hpost.symm)] at hstatus
  cases hd : r.data? with
  | error e =>
    rw [response_of_unreadable hpost hd] at hstatus
    rcases status_of_data?_eq_error hd with he | he <;> omega
  | ok body =>
    rcases posted_cases config hpost hd with
      ⟨errors, parts, limit, hr⟩ | ⟨call, ha⟩ | ⟨name, -, htool, -⟩
    · rw [response_of_rejected hpost hr] at hstatus
      rcases status_repeating with he | he <;> rw [he] at hstatus <;> cases hstatus
    · cases hexceeds : call.exceeds config.maxCodeLength with
      | false => exact ⟨call, hp, hm, ha, hexceeds⟩
      | true =>
        rw [response_of_accepted ha hd, answer_of_exceeds (route_ne_tool t) hexceeds] at hstatus
        rcases status_tooLong config.maxCodeLength with he | he <;> omega
    · exact absurd htool (route_ne_tool t name)

/-- **The response does not depend on the logger**, nor on the state and the occasion, as long as
entries are not refused. -/
theorem response_eq_of_not_refuses {l : Logger} (hrefuses : config.logger.refuses = false)
    (hrefuses' : l.refuses = false) :
    (respond { config with logger := l } occasion s r).response =
      (respond config occasion' s' r).response := by
  rcases respond_cases config r with ⟨t, call, hp, hm, ha⟩ | ⟨response, records, hrespond⟩
  · obtain ⟨body, hd, -⟩ := operate_of_accepted ha
    rw [respond_of_route hp (hm.trans (method_route t).symm),
      respond_of_route hp (hm.trans (method_route t).symm), response_of_accepted ha hd,
      response_of_accepted ha hd]
    exact answer_eq_of_not_refuses (route_ne_tool t) hrefuses hrefuses'
  · calc (respond { config with logger := l } occasion s r).response = response := by rw [hrespond]
      _ = (respond config occasion' s' r).response :=
        (congrArg Outcome.response (hrespond config.logger occasion' s')).symm

/-! ## Runs -/

/-- The state that some requests leave. -/
def State.after (config : Config) (s : State) (requests : List (Occasion × Request)) : State :=
  ((serve config s requests).getLast?.map Outcome.state).getD s

theorem State.after_nil (config : Config) (s : State) : s.after config [] = s := rfl

theorem State.after_cons (config : Config) (s : State) (occasion : Occasion) (r : Request)
    (requests : List (Occasion × Request)) :
    s.after config ((occasion, r) :: requests) =
      (respond config occasion s r).state.after config requests := by
  simp only [State.after, serve, List.getLast?_cons]
  cases (serve config (respond config occasion s r).state requests).getLast? <;> rfl

end HdlReview.Service
