import HdlReview.Proofs.Service.Posted

/-!
# The limit for code

A review is sent in answer to two kinds of requests only: those that post its arguments to the path
of its own, and those that call the tool. The first way has a limit for the length of code; code
beyond it is turned down before it is looked at. The second way has none.

## Main definitions

* `AsksReview r route q`: the request posts the arguments `q` of a review to an operation

## Main results

* `limit_of_sent_review`: where the limit holds, and where it does not
* `sent_review_beyond_limit`: a review beyond the limit
-/

namespace HdlReview.Service

open HdlReview.Json HdlReview.Validation HdlReview.Decimal HdlReview.Lint HdlReview.Tools
open HdlReview.Text

variable {config : Config} {occasion : Occasion} {s : State} {r : Request} {route : Route}
  {report : Report}

/-- **The request asks an operation for a review**. -/
structure AsksReview (r : Request) (route : Route) (q : ReviewRequest) : Prop where
  path : Route.ofPath? r.target.path = some route
  method : r.method = "POST"
  accepted : Accepted r route (.review q)

/-! ## Data that are a report -/

theorem data_eq_sent {status status' : Nat} {v w : Value}
    (h : Response.data status v = .sent status' w) : status = status' ∧ v = w := by
  cases hv : v.allFinite with
  | true =>
    rw [data_of_finite hv] at h
    simpa [Response.sent] using h
  | false =>
    rw [data_of_not_finite hv] at h
    simp [Response.internalError, Response.sent] at h

/-- The first field tells a report from any other data that are sent. -/
theorem not_report_of_ne {name : String} {v : Value} {fields : Fields} (hn : name ≠ "totalIssues") :
    Value.obj ((name, v) :: fields) ≠ report.toValue := by
  rw [Report.toValue]
  intro h
  simp only [Value.obj.injEq, List.cons.injEq, Prod.mk.injEq] at h
  exact hn h.1.1

theorem exists_review_of_toValue_eq {call : Call} (h : call.run.1.toValue = report.toValue ∨
    (sentResult call.run.1).toValue = report.toValue) : ∃ q, call = .review q := by
  cases call with
  | review q => exact ⟨q, rfl⟩
  | timing q => rcases h with h | h <;> exact absurd h (not_report_of_ne (by decide))
  | crossing q => rcases h with h | h <;> exact absurd h (not_report_of_ne (by decide))

/-! ## Requests for a review -/

/-- A request for a review goes to the path of its own or to the tool. -/
theorem route_of_accepted_review {q : ReviewRequest} (h : Accepted r route (.review q)) :
    route = .review ∨ route = .tool Tool.review.name := by
  obtain ⟨t, body, fields, ht, -, -, hc⟩ := h
  have hreview : t = .review := by
    cases t with
    | review => rfl
    | timing => exact absurd (Call.of_eq_ok hc) nofun
    | crossing => exact absurd (Call.of_eq_ok hc) nofun
  subst hreview
  cases route with
  | review => exact .inl rfl
  | tool name => exact .inr (by rw [Tool.ofName?_eq_some_iff.1 ht])
  | _ => exact absurd ht nofun

theorem exceeds_review (limit : Int) (q : ReviewRequest) :
    (Call.review q).exceeds limit = false ↔ q.code.length ≤ limit := by
  simp [Call.exceeds]

/-- A call that is answered with a report is a review, within the limit unless a tool is called. -/
theorem exists_review_of_answer {body : Value RawText} {call : Call}
    (h : config.answer body route call = .sent 200 report.toValue) :
    ∃ q, call = .review q ∧ report.toValue = (review q.language q.code.toList).toValue ∧
      ((∃ name, route = .tool name) ∨ q.code.length ≤ config.maxCodeLength) := by
  by_cases htool : ∃ name, route = .tool name
  · obtain ⟨name, rfl⟩ := htool
    obtain ⟨-, hv⟩ := data_eq_sent (eq_sent_of_repeating h)
    obtain ⟨q, rfl⟩ := exists_review_of_toValue_eq (.inl hv)
    exact ⟨q, rfl, hv.symm, .inl ⟨name, rfl⟩⟩
  · -- at a path of its own the limit is asked first, so that what is sent is within it
    have hown : ∀ name, route ≠ .tool name := fun name hn => htool ⟨name, hn⟩
    cases hexceeds : call.exceeds config.maxCodeLength with
    | true =>
      rw [answer_of_exceeds hown hexceeds] at h
      have hstatus := congrArg Response.status h
      rcases status_tooLong config.maxCodeLength with he | he <;> rw [he] at hstatus <;>
        cases hstatus
    | false =>
      rw [answer_of_not_exceeds hown hexceeds, Config.recorded] at h
      split at h
      · exact absurd (congrArg Response.status h) (by simp [Response.internalError])
      · have hv : (sentResult call.run.1).toValue = report.toValue := by
          simpa [Response.sent] using eq_sent_of_repeating h
        obtain ⟨q, rfl⟩ := exists_review_of_toValue_eq (.inr hv)
        exact ⟨q, rfl, hv.symm, .inr ((exceeds_review _ q).1 hexceeds)⟩

/-- Data are sent with success only by the operation that the path leads to. -/
theorem operate_of_sent {v : Value} (h : (respond config occasion s r).response = .sent 200 v) :
    ∃ route, Route.ofPath? r.target.path = some route ∧ r.method = route.method ∧
      (operate config occasion s r route).response = .sent 200 v := by
  have hstatus : (respond config occasion s r).response.status = 200 := by rw [h, status_sent]
  rw [respond] at h hstatus
  split at h
  · next route hp =>
    rw [hp] at hstatus
    by_cases hm : r.method = route.method
    · rw [if_pos hm] at h
      exact ⟨route, hp, hm, h⟩
    · simp [hm, State.answer, Response.methodNotAllowed] at hstatus
  · next hp =>
    rw [hp] at hstatus
    cases hs : slashless? r.target with
    | some target => simp [hs, State.answer, Response.redirect] at hstatus
    | none => simp [hs, State.answer, Response.notFound] at hstatus

/-- The operations that are not posted to send no report. -/
theorem method_of_sent_review
    (h : (operate config occasion s r route).response = .sent 200 report.toValue) :
    route.method = "POST" := by
  cases route with
  | health =>
    have hsent : Response.data 200 healthValue = .sent 200 report.toValue := h
    exact absurd (data_eq_sent hsent).2 (not_report_of_ne (by decide))
  | tools =>
    have hsent : Response.data 200 (.list (descriptors.map Descriptor.toValue)) =
      .sent 200 report.toValue := h
    exact absurd (data_eq_sent hsent).2 (by simp [Report.toValue])
  | _ => rfl

/-- **A review that is sent** was asked for, and is within the limit unless a tool was called. -/
theorem asksReview_of_sent_review
    (h : (respond config occasion s r).response = .sent 200 report.toValue) :
    ∃ route q, AsksReview r route q ∧
      report.toValue = (review q.language q.code.toList).toValue ∧
      ((∃ name, route = .tool name) ∨ q.code.length ≤ config.maxCodeLength) := by
  obtain ⟨route, hp, hm, hsent⟩ := operate_of_sent h
  have hpost := method_of_sent_review hsent
  have hstatus : (operate config occasion s r route).response.status = 200 := by
    rw [hsent, status_sent]
  -- of all that can become of the body, only a call is answered with success
  cases hd : r.data? with
  | error e =>
    rw [response_of_unreadable hpost hd] at hstatus
    rcases status_of_data?_eq_error hd with he | he <;> omega
  | ok body =>
    rcases posted_cases config hpost hd with
      ⟨errors, parts, limit, hr⟩ | ⟨call, ha⟩ | ⟨name, fields, rfl, hn, hfields⟩
    · rw [response_of_rejected hpost hr] at hsent
      exact absurd (congrArg Response.status (eq_sent_of_repeating hsent)) (by simp)
    · rw [response_of_accepted ha hd] at hsent
      obtain ⟨q, rfl, hreport, hlimit⟩ := exists_review_of_answer hsent
      exact ⟨route, q, ⟨hp, hm.trans hpost, ha⟩, hreport, hlimit⟩
    · rw [response_of_unknown hn hd hfields, status_detail] at hstatus
      omega

theorem own_ne_tool (name : String) : Route.review ≠ .tool name := nofun

theorem response_of_tool_review {q : ReviewRequest} (h : AsksReview r (.tool Tool.review.name) q) :
    (respond config occasion s r).response =
      .sent 200 (review q.language q.code.toList).toValue := by
  obtain ⟨body, hd⟩ := h.accepted.exists_data?
  rw [respond_of_route h.path h.method, response_of_accepted h.accepted hd]
  exact sendResult_of_finite (allFinite_report _)

theorem response_of_own_review {q : ReviewRequest} (h : AsksReview r .review q)
    (hlimit : q.code.length ≤ config.maxCodeLength) (hrefuses : config.logger.refuses = false) :
    (respond config occasion s r).response =
      .sent 200 (review q.language q.code.toList).toValue := by
  obtain ⟨body, hd⟩ := h.accepted.exists_data?
  rw [respond_of_route h.path h.method, response_of_accepted h.accepted hd,
    answer_of_not_exceeds own_ne_tool ((exceeds_review _ q).2 hlimit), Config.recorded, hrefuses]
  rfl

theorem response_of_long_review {q : ReviewRequest} (h : AsksReview r .review q)
    (hlong : config.maxCodeLength < q.code.length) :
    (respond config occasion s r).response = tooLong config.maxCodeLength := by
  obtain ⟨body, hd⟩ := h.accepted.exists_data?
  rw [respond_of_route h.path h.method, response_of_accepted h.accepted hd]
  exact answer_of_exceeds own_ne_tool (by simpa [Call.exceeds] using hlong)

/-- **The limit for code** holds for every review that is sent from the path of its own, where
longer code is turned down. A tool sends the review of any code. -/
theorem limit_of_sent_review (config : Config) (occasion : Occasion) (s : State) (r : Request) :
    (∀ report : Report, (respond config occasion s r).response = .sent 200 report.toValue →
      ∃ route q, AsksReview r route q ∧
        report.toValue = (review q.language q.code.toList).toValue ∧
        (route = .review ∧ q.code.length ≤ config.maxCodeLength ∨
          route = .tool Tool.review.name)) ∧
      (∀ q, AsksReview r .review q → config.maxCodeLength < q.code.length →
        (respond config occasion s r).response = tooLong config.maxCodeLength) ∧
      (∀ q, AsksReview r .review q → q.code.length ≤ config.maxCodeLength →
        config.logger.refuses = false → (respond config occasion s r).response =
          .sent 200 (review q.language q.code.toList).toValue) ∧
      ∀ q, AsksReview r (.tool Tool.review.name) q → (respond config occasion s r).response =
        .sent 200 (review q.language q.code.toList).toValue := by
  refine ⟨fun report h => ?_, fun q => response_of_long_review, fun q => response_of_own_review,
    fun q => response_of_tool_review⟩
  obtain ⟨route, q, hasks, hreport, hlimit⟩ := asksReview_of_sent_review h
  refine ⟨route, q, hasks, hreport, ?_⟩
  rcases route_of_accepted_review hasks.accepted with rfl | rfl
  · exact .inl ⟨rfl, hlimit.resolve_left nofun⟩
  · exact .inr rfl

/-! ## Code beyond the limit -/

/-- A request for a review of code with four characters. -/
def wireRequest : ReviewRequest := ⟨"wire", .verilog⟩

/-- The body that holds this request. -/
def wireBody : String := "\x7b\"code\":\"wire\",\"language\":\"verilog\"\x7d"

theorem data?_wireBody (path : String) :
    (Request.post path wireBody).data? =
      .ok (Value.raw (.obj [("code", .str "wire"), ("language", .str "verilog")])) := by
  rw [data?_post (by decide +kernel) (by decide)]
  with_unfolding_all rfl

theorem asksReview_own : AsksReview (.post "/analyze" wireBody) .review wireRequest :=
  ⟨by decide +kernel, rfl, .review, _, _, rfl, data?_wireBody _, Value.plain_raw _, rfl⟩

theorem asksReview_tool :
    AsksReview (.post "/tools/analyzeVerilog" wireBody) (.tool Tool.review.name) wireRequest :=
  ⟨by decide +kernel, rfl, .review, _, _, by decide, data?_wireBody _, Value.plain_raw _, rfl⟩

/-- A configuration with a limit and without an audit log. -/
def Config.limited (limit : Int) : Config :=
  ⟨limit, .ofOptions none false, depthLimit, depthLimit⟩

theorem limit_of_sent_review_wire :
    AsksReview (.post "/analyze" wireBody) .review wireRequest ∧
      AsksReview (.post "/tools/analyzeVerilog" wireBody) (.tool Tool.review.name) wireRequest ∧
      ∀ occasion s,
        (respond (.limited 4) occasion s (.post "/analyze" wireBody)).response =
          .sent 200 (review wireRequest.language wireRequest.code.toList).toValue ∧
        (∃ route q, AsksReview (.post "/analyze" wireBody) route q ∧
          (review wireRequest.language wireRequest.code.toList).toValue =
            (review q.language q.code.toList).toValue ∧
          (route = .review ∧ q.code.length ≤ (Config.limited 4).maxCodeLength ∨
            route = .tool Tool.review.name)) ∧
        (respond (.limited 3) occasion s (.post "/analyze" wireBody)).response =
          tooLong (Config.limited 3).maxCodeLength ∧
        (respond (.limited 3) occasion s (.post "/tools/analyzeVerilog" wireBody)).response =
          .sent 200 (review wireRequest.language wireRequest.code.toList).toValue := by
  refine ⟨asksReview_own, asksReview_tool, fun occasion s => ?_⟩
  obtain ⟨hsent, -, hown, -⟩ :=
    limit_of_sent_review (.limited 4) occasion s (.post "/analyze" wireBody)
  have hreview := hown wireRequest asksReview_own (by decide) (by decide)
  refine ⟨hreview, hsent _ hreview, ?_, ?_⟩
  · exact (limit_of_sent_review (.limited 3) occasion s (.post "/analyze" wireBody)).2.1
      wireRequest asksReview_own (by decide)
  · exact (limit_of_sent_review (.limited 3) occasion s
      (.post "/tools/analyzeVerilog" wireBody)).2.2.2 wireRequest asksReview_tool

/-- **A review beyond the limit**: the tool sends the review of four characters where three are
allowed. -/
theorem sent_review_beyond_limit :
    AsksReview (.post "/tools/analyzeVerilog" wireBody) (.tool Tool.review.name) wireRequest ∧
      (Config.limited 3).maxCodeLength < wireRequest.code.length ∧
      ∀ occasion s,
        (respond (.limited 3) occasion s (.post "/tools/analyzeVerilog" wireBody)).response =
          .sent 200 (review wireRequest.language wireRequest.code.toList).toValue := by
  refine ⟨asksReview_tool, by decide, fun occasion s => ?_⟩
  exact response_of_tool_review asksReview_tool

end HdlReview.Service
