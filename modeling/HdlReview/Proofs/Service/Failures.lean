import HdlReview.Proofs.Service.Posted

/-!
# Posted bodies that the server fails on

Numbers that are not finite cannot be sent, nor texts with lone halves of surrogate pairs, nor
values that are too deep; and errors show the values that they are about. So a body that is rejected
for such a value is answered with an internal error. The same happens if a result repeats a text
that cannot be sent, or a tool accepts a frequency that is not finite, for its result repeats that,
and if an operation with a path of its own cannot be recorded or cannot name the limit for code.
There is no other way to fail: all other bodies are answered with one of four statuses, and rejected
ones with their errors.

## Main definitions

* `Fails config r route`: the body of a request is one that the server fails on

## Main results

* `response_to_posted_body`: when the server fails, and what it answers otherwise
* `rejected_without_errors`: a body that is rejected and not answered with the errors
-/

namespace HdlReview.Service

open HdlReview.Json HdlReview.Validation HdlReview.Tools HdlReview.Text HdlReview.Decimal

variable {config : Config} {occasion : Occasion} {s : State} {r : Request} {route : Route}

/-- **Bodies that the server fails on**: an error shows a part that cannot be sent again, or a
result repeats one, or a tool's result holds a frequency that is not finite, or an operation with a
path of its own cannot be recorded, or code is beyond a limit that has too many digits to be named.
-/
inductive Fails (config : Config) (r : Request) (route : Route) : Prop
  | rejected {errors : List Value} {parts : List (Value RawText)} {limit : Nat}
    {v : Value RawText} : Rejected config r route errors parts limit → v ∈ parts →
    v.sendable limit = false → Fails config r route
  | unrepeatable {call : Call} {body : Value RawText} {place : List Segment} :
    Accepted r route call → r.data? = .ok body → place ∈ repeated call.run.1 →
    (reach place body).sendable 0 = false → Fails config r route
  | unsendable {name : String} {call : Call} {x : Decimal.Double} : route = .tool name →
    Accepted r route call → call.frequency? = some x → x.isFinite = false → Fails config r route
  | unrecorded {call : Call} : (∀ name, route ≠ .tool name) → Accepted r route call →
    call.exceeds config.maxCodeLength = false → config.logger.refuses = true →
    Fails config r route
  | unnamed {call : Call} : (∀ name, route ≠ .tool name) → Accepted r route call →
    call.exceeds config.maxCodeLength = true → longBound ≤ config.maxCodeLength.natAbs →
    Fails config r route

/-- A call with a text that its result repeats has no code. -/
theorem exceeds_of_mem_repeated {call : Call} {place : List Segment}
    (h : place ∈ repeated call.run.1) (limit : Int) : call.exceeds limit = false := by
  cases call with
  | review q => cases h
  | timing q => rfl
  | crossing q => rfl

theorem answer_of_unrepeatable {call : Call} {body : Value RawText} {place : List Segment}
    (hm : place ∈ repeated call.run.1) (h : (reach place body).sendable 0 = false) :
    config.answer body route call = .internalError := by
  have hpart : reach place body ∈ partsAt (repeated call.run.1) body := List.mem_map_of_mem hm
  by_cases htool : ∃ name, route = .tool name
  · obtain ⟨name, rfl⟩ := htool
    exact repeating_of_not_sendable hpart h
  · rw [answer_of_not_exceeds (fun name hn => htool ⟨name, hn⟩) (exceeds_of_mem_repeated hm _),
      repeating_of_not_sendable hpart h, Config.recorded, ite_self]

theorem response_of_fails (hroute : route.method = "POST") (h : Fails config r route) :
    (operate config occasion s r route).response = .internalError := by
  cases h with
  | rejected hr hm hv =>
    rw [response_of_rejected hroute hr]
    exact repeating_of_not_sendable hm hv
  | unrepeatable ha hd hm hv =>
    rw [response_of_accepted ha hd]
    exact answer_of_unrepeatable hm hv
  | @unsendable name call x htool ha hx hfinite =>
    subst htool
    obtain ⟨body, hd⟩ := ha.exists_data?
    have hdata : Response.data 200 call.run.1.toValue = .internalError := by
      refine data_of_not_finite ((allFinite_run call).trans ?_)
      rw [hx, Option.all_some, hfinite]
    rw [response_of_accepted ha hd, Config.answer, sendResult, hdata]
    exact repeating_eq_or.elim id id
  | unrecorded hown ha hexceeds hrefuses =>
    obtain ⟨body, hd⟩ := ha.exists_data?
    rw [response_of_accepted ha hd, answer_of_not_exceeds hown hexceeds, Config.recorded,
      if_pos hrefuses]
  | unnamed hown ha hexceeds hlong =>
    obtain ⟨body, hd⟩ := ha.exists_data?
    rw [response_of_accepted ha hd, answer_of_exceeds hown hexceeds, tooLong_of_le hlong]

/-- The statuses that the server means to answer posted bodies with. -/
def meantStatuses : List Nat := [200, 400, 404, 422]

theorem fails_or_status_of_rejected {errors : List Value} {parts : List (Value RawText)}
    {limit : Nat} (hroute : route.method = "POST")
    (h : Rejected config r route errors parts limit) :
    Fails config r route ∨ (operate config occasion s r route).response.status ∈ meantStatuses := by
  by_cases hparts : ∀ v ∈ parts, v.sendable limit = true
  · rw [response_of_rejected hroute h, repeating_of_sendable hparts]
    exact .inr (by simp [meantStatuses])
  · obtain ⟨v, hm, hv⟩ : ∃ v ∈ parts, v.sendable limit = false := by simpa using hparts
    exact .inl (.rejected h hm hv)

theorem fails_or_status_of_accepted {call : Call} {body : Value RawText}
    (h : Accepted r route call) (hd : r.data? = .ok body) :
    Fails config r route ∨ (operate config occasion s r route).response.status ∈ meantStatuses := by
  by_cases hparts : ∀ v ∈ partsAt (repeated call.run.1) body, v.sendable 0 = true
  case neg =>
    obtain ⟨place, hm, hv⟩ : ∃ place ∈ repeated call.run.1,
        (reach place body).sendable 0 = false := by simpa [partsAt] using hparts
    exact .inl (.unrepeatable h hd hm hv)
  rw [response_of_accepted h hd]
  by_cases htool : ∃ name, route = .tool name
  · -- a tool's result repeats the frequency as it is
    obtain ⟨name, rfl⟩ := htool
    cases hfinite : call.frequency?.all Decimal.Double.isFinite with
    | true =>
      rw [Config.answer, sendResult_of_finite ((allFinite_run call).trans hfinite),
        repeating_of_sendable hparts]
      exact .inr (by simp [meantStatuses])
    | false =>
      cases hx : call.frequency? with
      | none => simp [hx] at hfinite
      | some x => exact .inl (.unsendable rfl h hx (by simpa [hx] using hfinite))
  · -- at a path of its own a frequency that is not finite is left out
    have hown : ∀ name, route ≠ .tool name := fun name hn => htool ⟨name, hn⟩
    cases hexceeds : call.exceeds config.maxCodeLength with
    | true =>
      rcases Nat.lt_or_ge config.maxCodeLength.natAbs longBound with hshort | hlong
      · rw [answer_of_exceeds hown hexceeds, tooLong_of_lt hshort, status_detail]
        exact .inr (by decide)
      · exact .inl (.unnamed hown h hexceeds hlong)
    | false =>
      cases hrefuses : config.logger.refuses with
      | true => exact .inl (.unrecorded hown h hexceeds hrefuses)
      | false =>
        rw [answer_of_not_exceeds hown hexceeds, repeating_of_sendable hparts, Config.recorded,
          hrefuses]
        exact .inr (by simp [meantStatuses])

/-- A posted body is one that the server fails on, or it is answered with a status as meant. -/
theorem fails_or_status (config : Config) (occasion : Occasion) (s : State) (r : Request)
    (hroute : route.method = "POST") :
    Fails config r route ∨ (operate config occasion s r route).response.status ∈ meantStatuses := by
  cases hd : r.data? with
  | error e =>
    rw [response_of_unreadable hroute hd]
    rcases status_of_data?_eq_error hd with h | h
    · exact .inr (by simp [meantStatuses, h])
    · exact .inr (by simp [meantStatuses, h])
  | ok body =>
    rcases posted_cases config hroute hd with
      ⟨errors, parts, limit, h⟩ | ⟨call, h⟩ | ⟨name, fields, rfl, hn, hfields⟩
    · exact fails_or_status_of_rejected hroute h
    · exact fails_or_status_of_accepted h hd
    · rw [response_of_unknown hn hd hfields, detail_eq]
      exact .inr (by simp [meantStatuses])

/-- **The response to a posted body**: the server fails just on the bodies of `Fails`, it answers
all others with one of four statuses, and it sends the errors of a rejected body if all that they
show of it can be sent again. -/
theorem response_to_posted_body (config : Config) (occasion : Occasion) (s : State) {r : Request}
    {route : Route} (hp : Route.ofPath? r.target.path = some route) (hm : r.method = "POST")
    (hroute : route.method = "POST") :
    ((respond config occasion s r).response = .internalError ↔ Fails config r route) ∧
      (¬ Fails config r route →
        (respond config occasion s r).response.status ∈ [200, 400, 404, 422]) ∧
      ∀ errors parts limit, Rejected config r route errors parts limit →
        (∀ v ∈ parts, v.sendable limit = true) →
        (respond config occasion s r).response =
          .sent 422 (.obj [("detail", .list errors)]) := by
  rw [respond_of_route hp (hm.trans hroute.symm)]
  have hcases := fails_or_status config occasion s r hroute
  refine ⟨⟨fun h => ?_, response_of_fails hroute⟩, hcases.resolve_left, ?_⟩
  · -- an internal error has none of the four statuses
    refine hcases.resolve_right fun hstatus => ?_
    rw [h] at hstatus
    exact absurd hstatus (by decide)
  · intro errors parts limit h hparts
    rw [response_of_rejected hroute h, repeating_of_sendable hparts]

/-! ## Numbers that are not finite -/

/-- Arguments on timing with a frequency that is not a number. -/
def unsendableBody : String := "\x7b\"issue\":\"slow\",\"clockFrequency\":NaN\x7d"

theorem accepted_unsendableBody :
    Accepted (.post "/tools/timingAnalysis" unsendableBody) (.tool "timingAnalysis")
      (.timing ⟨"slow", some .nan, .unknown⟩) := by
  have hd : (Request.post "/tools/timingAnalysis" unsendableBody).data? =
      .ok (Value.raw (.obj [("issue", .str "slow"), ("clockFrequency", .float .nan)])) := by
    rw [data?_post (by decide +kernel) (by decide)]
    with_unfolding_all rfl
  exact ⟨.timing, _, _, by decide, hd, Value.plain_raw _, rfl⟩

theorem response_to_posted_body_unsendable :
    Route.ofPath? (Request.post "/tools/timingAnalysis" unsendableBody).target.path =
        some (.tool "timingAnalysis") ∧
      (Request.post "/tools/timingAnalysis" unsendableBody).method = "POST" ∧
      (Route.tool "timingAnalysis").method = "POST" ∧
      ∀ config occasion s,
        (respond config occasion s (.post "/tools/timingAnalysis" unsendableBody)).response =
          .internalError := by
  have hpath : Route.ofPath? (Request.post "/tools/timingAnalysis" unsendableBody).target.path =
      some (.tool "timingAnalysis") := by decide +kernel
  refine ⟨hpath, rfl, rfl, fun config occasion s => ?_⟩
  have hfails : Fails config (.post "/tools/timingAnalysis" unsendableBody)
      (.tool "timingAnalysis") :=
    .unsendable rfl accepted_unsendableBody rfl rfl
  exact (response_to_posted_body config occasion s hpath rfl rfl).1.2 hfails

/-- A review whose code is not a number. -/
def unshowableBody : String := "\x7b\"code\":NaN,\"language\":\"verilog\"\x7d"

/-- **A body that is rejected and not answered with its errors**: the error about the code shows a
number that is not finite. -/
theorem rejected_without_errors :
    (∀ config, ∃ errors parts limit,
        Rejected config (.post "/analyze" unshowableBody) .review errors parts limit) ∧
      ∀ config occasion s,
        (respond config occasion s (.post "/analyze" unshowableBody)).response =
          .internalError := by
  have hd : (Request.post "/analyze" unshowableBody).data? =
      .ok (Value.raw (.obj [("code", .float .nan), ("language", .str "verilog")])) := by
    rw [data?_post (by decide +kernel) (by decide)]
    with_unfolding_all rfl
  have hc : Tool.review.readCall (.obj [("code", .float .nan), ("language", .str "verilog")]) =
      .error [⟨.notText, [.field "code"], .float .nan⟩] := rfl
  have hpath : Route.ofPath? (Request.post "/analyze" unshowableBody).target.path =
      some .review := by decide +kernel
  have hrejected (config : Config) : Rejected config (.post "/analyze" unshowableBody) .review
      [Route.review.shown ⟨.notText, [.field "code"], .float .nan⟩] [.float .nan]
      config.bodyDepth := .arguments rfl hd (Value.plain_raw _) hc
  refine ⟨fun config => ⟨_, _, _, hrejected config⟩, fun config occasion s => ?_⟩
  rw [respond_of_route hpath rfl]
  exact response_of_fails rfl (.rejected (hrejected config) (List.mem_singleton_self _) rfl)

end HdlReview.Service
