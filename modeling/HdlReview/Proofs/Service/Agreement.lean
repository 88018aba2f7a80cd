import HdlReview.Proofs.Service.Posted
import Mathlib.Data.List.Forall2

/-!
# Two ways to one operation

Each tool is offered at a path of its own as well. Both ways read the same arguments from a body and
give the same result, and they turn down the same bodies with the same errors. They differ in four
points. Only the path of its own has a limit for code and records what it does; its errors have the
body as the first step of their places; they carry the context of a defect; and they show the body
without its internal fields, while the tool shows all of it. So one may be able to send its errors
where the other fails.

## Main definitions

* `PostedTwice t r r'`: the same body for a tool at both paths
* `SameError echo e e'`: the same error at both paths, where the first shows `echo` of what the
  second shows
* `AnsweredAlike echo config t body fields`: responses at both paths that agree

## Main results

* `answered_alike`: both ways agree up to internal fields
* `not_answered_alike_verbatim`: they do not agree on what is shown of internal fields
-/

namespace HdlReview.Service

open HdlReview.Json HdlReview.Validation HdlReview.Tools HdlReview.Text

variable {config : Config} {occasion : Occasion} {s : State} {r r' : Request} {t : Tool}
  {body : Value RawText} {fields : Fields} {echo : Value → Value}

theorem tool?_tool_name (t : Tool) : (Route.tool t.name).tool? = some t :=
  Tool.ofName?_eq_some_iff.2 rfl

/-! ## Agreement -/

/-- The same body posted to the path of its own that a tool has, and to the tool. -/
structure PostedTwice (t : Tool) (r r' : Request) : Prop where
  path : Route.ofPath? r.target.path = some t.route
  toolPath : Route.ofPath? r'.target.path = some (.tool t.name)
  method : r.method = "POST"
  toolMethod : r'.method = "POST"
  contentType : r'.contentType = r.contentType
  body : r'.body = r.body

/-- **The same error at both paths**: of the same type and with the same message. The first has a
place that starts at the body, it may have a context, and it shows `echo` of what the second
shows. -/
inductive SameError (echo : Value → Value) : Value → Value → Prop
  | mk (code message input : Value) (place : List Value) (context : Option Value) :
    SameError echo
      (.obj ([("type", code), ("loc", .list (.str "body" :: place)), ("msg", message),
        ("input", echo input)] ++ (context.map fun c => ("ctx", c)).toList))
      (.obj [("type", code), ("loc", .list place), ("msg", message), ("input", input)])

/-- **Responses at both paths that agree**: the same data, or the same errors in the same order. The
exception is code beyond the limit, which only the tool takes. Of calls that the logger refuses to
record, nothing is said but that the tool sends the result. Both repeat the same text of a body that
is accepted. Of one that is rejected the tool shows the parts with faults as they are, and the path
of its own shows them without internal fields; each fails if it cannot send what it shows. -/
inductive AnsweredAlike (echo : Value → Value) (config : Config) (t : Tool) (body : Value RawText)
    (fields : Fields) : Response → Response → Prop
  | accepted {call : Call} : t.readCall (.obj fields) = .ok call →
    call.exceeds config.maxCodeLength = false → config.logger.refuses = false →
    AnsweredAlike echo config t body fields
      (.repeating 0 (partsAt (repeated call.run.1) body) (.sent 200 call.run.1.toValue))
      (.repeating 0 (partsAt (repeated call.run.1) body) (.sent 200 call.run.1.toValue))
  | tooLong {call : Call} : t.readCall (.obj fields) = .ok call →
    call.exceeds config.maxCodeLength = true →
    AnsweredAlike echo config t body fields (tooLong config.maxCodeLength)
      (.sent 200 call.run.1.toValue)
  | unrecorded {call : Call} (response : Response) : t.readCall (.obj fields) = .ok call →
    call.exceeds config.maxCodeLength = false → config.logger.refuses = true →
    AnsweredAlike echo config t body fields response
      (.repeating 0 (partsAt (repeated call.run.1) body) (.sent 200 call.run.1.toValue))
  | rejected {fs : List Fault} {errors errors' : List Value} :
    t.readCall (.obj fields) = .error fs → List.Forall₂ (SameError echo) errors errors' →
    AnsweredAlike echo config t body fields
      (.repeating config.bodyDepth
        ((partsAt (fs.map Fault.place) body).map Response.visiblePart)
        (.sent 422 (.obj [("detail", .list errors)])))
      (.repeating config.argumentDepth (partsAt (fs.map Fault.place) body)
        (.sent 422 (.obj [("detail", .list errors')])))

theorem details_inj {errors errors' : List Value}
    (h : Response.sent 422 (.obj [("detail", .list errors)]) =
      .sent 422 (.obj [("detail", .list errors')])) : errors = errors' := by
  simpa [Response.sent] using h

/-- Responses that agree and carry errors carry the same errors. -/
theorem AnsweredAlike.errors {errors errors' : List Value}
    (h : AnsweredAlike echo config t body fields (.sent 422 (.obj [("detail", .list errors)]))
      (.sent 422 (.obj [("detail", .list errors')]))) :
    List.Forall₂ (SameError echo) errors errors' := by
  generalize hv : Response.sent 422 (.obj [("detail", .list errors)]) = response at h
  generalize hw : Response.sent 422 (.obj [("detail", .list errors')]) = response' at h
  cases h with
  | rejected _ h =>
    rwa [← details_inj (eq_sent_of_repeating hv.symm), ← details_inj (eq_sent_of_repeating hw.symm)]
  | tooLong _ _ => exact absurd (congrArg Response.status hw) (by simp)
  | _ => exact absurd (congrArg Response.status (eq_sent_of_repeating hw.symm)) (by simp)

theorem PostedTwice.data?_eq (h : PostedTwice t r r') : r'.data? = r.data? := by
  rw [Request.data?, Request.data?, h.body, h.contentType]

theorem PostedTwice.respond_own (h : PostedTwice t r r') :
    respond config occasion s r = operate config occasion s r t.route :=
  respond_of_route h.path (h.method.trans (method_route t).symm)

theorem PostedTwice.respond_tool (h : PostedTwice t r r') :
    respond config occasion s r' = operate config occasion s r' (.tool t.name) :=
  respond_of_route h.toolPath h.toolMethod

/-! ## Arguments that are rejected -/

/-- What the path of its own shows of a fault is the same error if it shows the same input. -/
theorem sameError_shown_iff (f : Fault) :
    SameError echo (t.route.shown f) ((Route.tool t.name).shown f) ↔
      visible f.input = echo f.input := by
  have hshown : t.route.shown f = (visibleFault (f.within bodyPlace)).toValueWithContext := by
    cases t <;> rfl
  rw [hshown]
  constructor
  · generalize hv : (visibleFault (f.within bodyPlace)).toValueWithContext = v
    generalize hw : (Route.tool t.name).shown f = w
    rintro ⟨code, message, input, place, context⟩
    simp only [Route.shown, Fault.toValue, Fault.describe, Value.obj.injEq, List.cons.injEq,
      Prod.mk.injEq] at hw
    simp only [Fault.toValueWithContext, Fault.describe, List.cons_append, Value.obj.injEq,
      List.cons.injEq, Prod.mk.injEq] at hv
    obtain ⟨-, -, -, ⟨-, hinput⟩, -⟩ := hw
    obtain ⟨-, -, -, ⟨-, hecho⟩, -⟩ := hv
    calc visible f.input = echo input := hecho
      _ = echo f.input := by rw [hinput]
  · intro h
    have hmk := @SameError.mk echo (.str f.defect.code) (.str f.defect.message) f.input
      (f.place.map Segment.toValue) f.defect.context
    rw [← h] at hmk
    exact hmk

/-- **The two responses to arguments that are rejected**. -/
theorem responses_of_faults (config : Config) (occasion occasion' : Occasion) (s s' : State)
    {fs : List Fault} (h : PostedTwice t r r') (hd : r.data? = .ok body)
    (hfields : body.plain = .obj fields) (hc : t.readCall (.obj fields) = .error fs) :
    (respond config occasion s r).response =
        .repeating config.bodyDepth
          ((partsAt (fs.map Fault.place) body).map Response.visiblePart)
          (.sent 422 (.obj [("detail", .list (fs.map t.route.shown))])) ∧
      (respond config occasion' s' r').response =
        .repeating config.argumentDepth (partsAt (fs.map Fault.place) body)
          (.sent 422 (.obj [("detail", .list (fs.map (Route.tool t.name).shown))])) := by
  constructor
  · have hpart : t.route.shownPart = Response.visiblePart := by cases t <;> rfl
    have hdepth : config.depth t.route = config.bodyDepth := by cases t <;> rfl
    rw [h.respond_own, response_of_rejected (method_route t)
      (.arguments (tool?_route t) hd hfields hc), hpart, hdepth]
  · have hpart : (Route.tool t.name).shownPart = id := rfl
    rw [h.respond_tool, response_of_rejected rfl
      (.arguments (tool?_tool_name t) (h.data?_eq.trans hd) hfields hc), hpart, List.map_id]
    rfl

/-! ## Arguments that are accepted -/

theorem read_of_nullable {α : Type} {read : Reader α} {v : Value} {a : α}
    (h : nullable read v = .ok (some a)) : read v = .ok a := by
  have hnull : v ≠ .null := by
    rintro rfl
    cases h
  rw [nullable] at h
  · split at h
    · next b hb => rw [hb, Option.some.inj (Except.ok.inj h)]
    · cases h
  · exact hnull

/-- What there is of a field that may be absent was read from it. -/
theorem exists_get?_of_optional {α : Type} {name : String} {read : Reader α} {a : α}
    (h : Validation.optional name (nullable read) none fields = .ok (some a)) :
    ∃ v, Keyed.get? name fields = some v ∧ read v = .ok a := by
  rw [Validation.optional] at h
  split at h
  · next v hv => exact ⟨v, hv, read_of_nullable (Checked.within_eq_ok_iff.1 h)⟩
  · cases h

/-- The frequency of a call is the one that its field is read as. -/
theorem frequency?_of_readCall {call : Call} (hc : t.readCall (.obj fields) = .ok call)
    (hclock : ∀ v x, Keyed.get? "clockFrequency" fields = some v → number v = .ok x →
      x.isFinite = true) :
    call.frequency?.all Decimal.Double.isFinite = true := by
  cases t with
  | review =>
    obtain ⟨q, -, rfl⟩ := Call.of_eq_ok hc
    rfl
  | crossing =>
    obtain ⟨q, -, rfl⟩ := Call.of_eq_ok hc
    rfl
  | timing =>
    -- the request is read field by field; only the field of the frequency matters
    obtain ⟨q, hq, rfl⟩ := Call.of_eq_ok hc
    have hfields : TimingRequest.readFields fields = .ok q := hq
    rw [TimingRequest.readFields, Checked.ap_eq_ok_iff] at hfields
    obtain ⟨g, violation, hg, -, rfl⟩ := hfields
    obtain ⟨g', clock, hg', hoptional, rfl⟩ := Checked.ap_eq_ok_iff.1 hg
    obtain ⟨make, issue, hmake, -, rfl⟩ := Checked.ap_eq_ok_iff.1 hg'
    obtain rfl := Except.ok.inj hmake
    cases clock with
    | none => rfl
    | some x =>
      obtain ⟨v, hv, hx⟩ := exists_get?_of_optional hoptional
      exact hclock v x hv hx

/-- A call with code beyond a limit repeats nothing of the body. -/
theorem repeated_of_exceeds {call : Call} {limit : Int} (h : call.exceeds limit = true) :
    repeated call.run.1 = [] := by
  cases call with
  | review q => rfl
  | timing q => cases h
  | crossing q => cases h

/-- **Both ways to an operation agree** on every body that is an object and asks about no frequency
that is not finite. The path of its own shows no internal fields. -/
theorem answered_alike (config : Config) (occasion occasion' : Occasion) (s s' : State) {t : Tool}
    {r r' : Request} {body : Value RawText} {fields : Fields} (h : PostedTwice t r r')
    (hd : r.data? = .ok body) (hfields : body.plain = .obj fields)
    (hclock : ∀ v x, Keyed.get? "clockFrequency" fields = some v → number v = .ok x →
      x.isFinite = true) :
    AnsweredAlike visible config t body fields (respond config occasion s r).response
      (respond config occasion' s' r').response := by
  -- both ways read the same arguments, so they accept or reject the body together
  cases hc : t.readCall (.obj fields) with
  | error fs =>
    obtain ⟨hr, hr'⟩ := responses_of_faults config occasion occasion' s s' h hd hfields hc
    rw [hr, hr']
    refine .rejected hc (List.forall₂_map_left_iff.2 (List.forall₂_map_right_iff.2 ?_))
    exact List.forall₂_same.2 fun f _ => (sameError_shown_iff f).2 rfl
  | ok call =>
    have hclock' := frequency?_of_readCall hc hclock
    have hd' : r'.data? = .ok body := h.data?_eq.trans hd
    have hr : (respond config occasion s r).response = config.answer body t.route call := by
      rw [h.respond_own]
      exact response_of_accepted ⟨t, body, fields, tool?_route t, hd, hfields, hc⟩ hd
    have hr' : (respond config occasion' s' r').response =
        .repeating 0 (partsAt (repeated call.run.1) body) (.sent 200 call.run.1.toValue) := by
      rw [h.respond_tool, response_of_accepted
        ⟨t, body, fields, tool?_tool_name t, hd', hfields, hc⟩ hd']
      exact sendResult_of_finite ((allFinite_run call).trans hclock')
    rw [hr, hr']
    cases hexceeds : call.exceeds config.maxCodeLength with
    | true =>
      rw [answer_of_exceeds (route_ne_tool t) hexceeds, repeated_of_exceeds hexceeds]
      exact .tooLong hc hexceeds
    | false =>
      cases hrefuses : config.logger.refuses with
      | true => exact .unrecorded _ hc hexceeds hrefuses
      | false =>
        rw [answer_of_not_exceeds (route_ne_tool t) hexceeds, sentResult_run hclock',
          Config.recorded, hrefuses]
        exact .accepted hc hexceeds hrefuses

/-! ## Internal fields -/

/-- The request that posts arguments on timing with an internal field, a frequency and no issue. -/
def internalFieldPost (path : String) : Request :=
  .post path "\x7b\"_sa\":1,\"clockFrequency\":true\x7d"

/-- The fields of its body. -/
def internalFields : Fields := [("_sa", .int 1), ("clockFrequency", .bool true)]

theorem postedTwice_internalFieldPost :
    PostedTwice .timing (internalFieldPost "/timing")
      (internalFieldPost "/tools/timingAnalysis") :=
  ⟨by decide +kernel, by decide +kernel, rfl, rfl, rfl, rfl⟩

theorem data?_internalFieldPost :
    (internalFieldPost "/timing").data? = .ok (Value.raw (.obj internalFields)) := by
  rw [internalFieldPost, data?_post (by decide +kernel) (by decide)]
  with_unfolding_all rfl

theorem number_internalFields {v : Value} {x : Decimal.Double}
    (hv : Keyed.get? "clockFrequency" internalFields = some v) (hx : number v = .ok x) :
    x.isFinite = true := by
  have hfrequency : Keyed.get? "clockFrequency" internalFields = some (.bool true) := rfl
  obtain rfl := Option.some.inj (hv.symm.trans hfrequency)
  obtain rfl : Decimal.Double.ofInt 1 = x := Except.ok.inj hx
  decide +kernel

/-- The only fault of the body: there is no issue. -/
def internalFault : Fault := ⟨.missing, [.field "issue"], .obj internalFields⟩

/-- What the fault shows can be sent, where an object can be shown. -/
theorem sendable_internalPart {limit : Nat} (h : 0 < limit) :
    (∀ v ∈ (partsAt ([internalFault].map Fault.place) (Value.raw (.obj internalFields))).map
        Response.visiblePart, v.sendable limit = true) ∧
      ∀ v ∈ partsAt ([internalFault].map Fault.place) (Value.raw (.obj internalFields)),
        v.sendable limit = true := by
  obtain ⟨n, rfl⟩ := Nat.exists_eq_add_one_of_ne_zero (Nat.ne_of_gt h)
  have hpart : (Value.raw (.obj internalFields)).sendable (n + 1) = true := by
    with_unfolding_all rfl
  have hshown : (Response.visiblePart (Value.raw (.obj internalFields))).sendable (n + 1) =
      true := by with_unfolding_all rfl
  have hparts : partsAt ([internalFault].map Fault.place) (Value.raw (.obj internalFields)) =
      [Value.raw (.obj internalFields)] := by with_unfolding_all rfl
  rw [hparts]
  exact ⟨List.forall_mem_singleton.2 hshown, List.forall_mem_singleton.2 hpart⟩

theorem answered_alike_internalFieldPost :
    PostedTwice .timing (internalFieldPost "/timing")
        (internalFieldPost "/tools/timingAnalysis") ∧
      (internalFieldPost "/timing").data? = .ok (Value.raw (.obj internalFields)) ∧
      (∀ v x, Keyed.get? "clockFrequency" internalFields = some v → number v = .ok x →
        x.isFinite = true) ∧
      ∀ config occasion occasion' s s', AnsweredAlike visible config .timing
        (Value.raw (.obj internalFields)) internalFields
        (respond config occasion s (internalFieldPost "/timing")).response
        (respond config occasion' s' (internalFieldPost "/tools/timingAnalysis")).response := by
  have hclock : ∀ v x, Keyed.get? "clockFrequency" internalFields = some v → number v = .ok x →
      x.isFinite = true := fun v x hv hx => number_internalFields hv hx
  refine ⟨postedTwice_internalFieldPost, data?_internalFieldPost, hclock, ?_⟩
  intro config occasion occasion' s s'
  exact answered_alike config occasion occasion' s s' postedTwice_internalFieldPost
    data?_internalFieldPost (Value.plain_raw _) hclock

/-- **The two ways do not show the same**: an internal field of the body is shown by the tool and
not at the path of its own, where both can show an object. -/
theorem not_answered_alike_verbatim :
    PostedTwice .timing (internalFieldPost "/timing")
        (internalFieldPost "/tools/timingAnalysis") ∧
      (internalFieldPost "/timing").data? = .ok (Value.raw (.obj internalFields)) ∧
      fieldsFinite internalFields = true ∧
      (∀ v x, Keyed.get? "clockFrequency" internalFields = some v → number v = .ok x →
        x.isFinite = true) ∧
      ∀ config occasion occasion' s s', 0 < config.bodyDepth → 0 < config.argumentDepth →
        ¬ AnsweredAlike id config .timing (Value.raw (.obj internalFields)) internalFields
          (respond config occasion s (internalFieldPost "/timing")).response
          (respond config occasion' s' (internalFieldPost "/tools/timingAnalysis")).response := by
  refine ⟨postedTwice_internalFieldPost, data?_internalFieldPost, rfl,
    fun v x hv hx => number_internalFields hv hx, ?_⟩
  intro config occasion occasion' s s' hdepth hdepth' halike
  have hc : Tool.timing.readCall (.obj internalFields) = .error [internalFault] := rfl
  obtain ⟨hr, hr'⟩ := responses_of_faults config occasion occasion' s s'
    postedTwice_internalFieldPost data?_internalFieldPost (Value.plain_raw _) hc
  rw [hr, hr', repeating_of_sendable (sendable_internalPart hdepth).1,
    repeating_of_sendable (sendable_internalPart hdepth').2] at halike
  -- the only error shows the whole body, which is not the same without its internal field
  have hshown : visible (.obj internalFields) = .obj internalFields := by
    cases halike.errors with
    | cons herror _ => exact (sameError_shown_iff _).1 herror
  have hvisible : visible (.obj internalFields) = .obj [("clockFrequency", .bool true)] := by
    with_unfolding_all rfl
  rw [hvisible, internalFields] at hshown
  exact absurd hshown (by simp)

end HdlReview.Service
