import HdlReview.Proofs.Json.OneLine
import HdlReview.Proofs.Service.Limit
import HdlReview.Proofs.Service.Recording

/-!
# The audit trail

While a logger writes, its file grows by one line for each request that is recorded, in the order of
the requests, and by nothing else. The line says which operation was carried out; for a review it
also has the language and the number of issues that the response reports. An entry that is lost
leaves all files as they are, whether it is one of many or they are all lost, and the responses are
the same without the trail.

## Main definitions

* `Describes occasion call response v`: the data that are recorded of a call
* `Leaves limit requests outcomes values`: the data that some requests leave in the log

## Main results

* `exists_leaves`: the log after some requests
* `files_serve_of_loses`: a run that leaves no trail
* `map_response_serve`: the responses of a run do not depend on the logger
* `audit_trail`: the log is a complete trail, and nothing depends on it
-/

namespace HdlReview.Service

open HdlReview.Audit HdlReview.Decimal HdlReview.Json HdlReview.Lint HdlReview.Tools
open HdlReview.Text

variable {config : Config} {occasion : Occasion} {s s' : State} {r : Request}

/-! ## Lines -/

/-- **The data that are recorded of a call**. A review has a language, and the number of issues is
the one that the response reports; advice has neither language nor issues, whether it can be sent or
not. -/
inductive Describes (occasion : Occasion) : Call → Response → Value → Prop
  | review (q : ReviewRequest) (report : Report) (duration : Double) :
    Describes occasion (.review q) (.sent 200 report.toValue)
      (.obj [("timestamp", .str (timestamp occasion.now)),
        ("request_id", .str occasion.requestId), ("operation", .str "analyze"),
        ("language", .str q.language.name), ("total_issues", .int report.totalIssues),
        ("duration_ms", .float duration)])
  | timing (q : TimingRequest) (response : Response) :
    Describes occasion (.timing q) response
      (.obj [("timestamp", .str (timestamp occasion.now)),
        ("request_id", .str occasion.requestId), ("operation", .str "timing"),
        ("total_issues", .int 0), ("duration_ms", .float (.zero false))])
  | crossing (q : CrossingRequest) (response : Response) :
    Describes occasion (.crossing q) response
      (.obj [("timestamp", .str (timestamp occasion.now)),
        ("request_id", .str occasion.requestId), ("operation", .str "cdc"),
        ("total_issues", .int 0), ("duration_ms", .float (.zero false))])

theorem describes_entry (occasion : Occasion) (s : State) (body : Value RawText) (call : Call) :
    Describes occasion call
      (.repeating 0 (partsAt (repeated call.run.1) body)
        (.sent 200 (sentResult call.run.1).toValue))
      ((call.entry occasion s).record occasion.now) := by
  cases call with
  | review q => exact .review q (review q.language q.code.toList) _
  | timing q => exact .timing q _
  | crossing q => exact .crossing q _

/-- **The data that some requests leave in the log**, in order: one value for each request that is
recorded, and none for the others. -/
inductive Leaves (limit : Int) : List (Occasion × Request) → List Outcome → List Value → Prop
  | nil : Leaves limit [] [] []
  | recorded {occasion : Occasion} {r : Request} {t : Tool} {call : Call} {o : Outcome} {v : Value}
    {requests : List (Occasion × Request)} {outcomes : List Outcome} {values : List Value} :
    Recordable limit r t call → Describes occasion call o.response v →
    Leaves limit requests outcomes values →
    Leaves limit ((occasion, r) :: requests) (o :: outcomes) (v :: values)
  | silent {occasion : Occasion} {r : Request} {o : Outcome}
    {requests : List (Occasion × Request)} {outcomes : List Outcome} {values : List Value} :
    (∀ t call, ¬ Recordable limit r t call) → Leaves limit requests outcomes values →
    Leaves limit ((occasion, r) :: requests) (o :: outcomes) values

/-- The lines of some data. -/
def linesOf (values : List Value) : List Char :=
  values.flatMap fun v => write v ++ ['\n']

/-! ## Requests -/

/-- **A logger that writes** goes on writing after a request. -/
theorem writes_respond (hw : config.logger.Writes s.directory) :
    config.logger.Writes (respond config occasion s r).state.directory := by
  rcases state_respond_cases config occasion s r with ⟨t, call, -, hstate⟩ | ⟨-, hstate⟩
  · rw [hstate]
    exact hw.after
  · rw [hstate]
    exact hw

/-- **A logger that loses entries** has lost at most one more after a request. -/
theorem loses_respond {n : Nat} (hl : config.logger.Loses s.directory (n + 1)) :
    config.logger.Loses (respond config occasion s r).state.directory n := by
  rcases state_respond_cases config occasion s r with ⟨t, call, -, hstate⟩ | ⟨-, hstate⟩
  · rw [hstate]
    exact hl.after
  · rw [hstate]
    exact hl.of_succ

/-- **A request whose entry is lost** changes no file. -/
theorem files_respond_of_not_opens (h : ¬ config.logger.Opens s.directory) :
    (respond config occasion s r).state.directory.files = s.directory.files := by
  rcases state_respond_cases config occasion s r with ⟨t, call, -, hstate⟩ | ⟨-, hstate⟩
  · rw [hstate]
    exact Logger.files_after_of_not_opens h
  · rw [hstate]

/-- The statuses with which a request is turned down or sent elsewhere. -/
def turnedDown : List Nat := [307, 400, 404, 405, 422]

/-- **Requests that leave everything as it is**: those that are turned down or sent elsewhere, that
are no posts, and that go to the tools. -/
theorem state_of_silent
    (h : (respond config occasion s r).response.status ∈ turnedDown ∨ r.method ≠ "POST" ∨
      Route.ofPath? r.target.path = some .tools ∨
      ∃ name, Route.ofPath? r.target.path = some (.tool name)) :
    (respond config occasion s r).state = s := by
  refine state_of_not_recordable fun t call hr => ?_
  -- a request that is recorded is a post to a path of its own, with success or an internal error
  rcases h with h | h | h | ⟨name, h⟩
  · rcases @Recordable.status config occasion s r t call hr with hstatus | hstatus
    · rw [hstatus] at h
      exact absurd h (by decide)
    · rw [hstatus] at h
      exact absurd h (by decide)
  · exact h hr.method
  · have hroute := Option.some.inj (hr.path.symm.trans h)
    cases t <;> cases hroute
  · exact route_ne_tool t name (Option.some.inj (hr.path.symm.trans h))

/-! ## Runs -/

/-- **The log after some requests**, while the logger writes. -/
theorem exists_leaves (hw : config.logger.Writes s.directory)
    (requests : List (Occasion × Request)) :
    ∃ values, Leaves config.maxCodeLength requests (serve config s requests) values ∧
      config.logger.text (s.after config requests).directory =
        config.logger.text s.directory ++ linesOf values := by
  induction requests generalizing s with
  | nil => exact ⟨[], .nil, by simp [State.after_nil, linesOf]⟩
  | cons x requests ih =>
    obtain ⟨occasion, r⟩ := x
    obtain ⟨values, hleaves, htext⟩ :=
      ih (s := (respond config occasion s r).state) (writes_respond hw)
    rw [State.after_cons, htext]
    rcases state_respond_cases config occasion s r with ⟨t, call, hr, hstate⟩ | ⟨hnot, hstate⟩
    · obtain ⟨body, hd⟩ := hr.accepted.exists_data?
      refine ⟨(call.entry occasion s).record occasion.now :: values, .recorded hr ?_ hleaves, ?_⟩
      · rw [hr.response hd, Config.recorded, hw.refuses_eq_false]
        exact describes_entry occasion s body call
      · rw [hstate, Logger.text_after hw.opens hr.line_entry, List.append_assoc]
        rfl
    · -- what is not recorded leaves the state, and with it the file
      refine ⟨values, .silent hnot hleaves, ?_⟩
      rw [hstate]

/-- **A run that leaves no trail**: no file is changed at any time. -/
theorem files_serve_of_loses (requests : List (Occasion × Request))
    (hl : config.logger.Loses s.directory requests.length) :
    ∀ o ∈ serve config s requests, o.state.directory.files = s.directory.files := by
  induction requests generalizing s with
  | nil => simp [serve]
  | cons x requests ih =>
    obtain ⟨occasion, r⟩ := x
    have hfirst : (respond config occasion s r).state.directory.files = s.directory.files :=
      files_respond_of_not_opens hl.not_opens
    intro o ho
    rcases List.mem_cons.1 ho with rfl | ho
    · exact hfirst
    · rw [← hfirst]
      exact ih (loses_respond hl) o ho

/-- **The responses of a run** do not depend on the logger, as long as it does not refuse, nor on
what becomes of its entries. -/
theorem map_response_serve {l : Logger} (hrefuses : config.logger.refuses = false)
    (hrefuses' : l.refuses = false) (requests : List (Occasion × Request)) :
    (serve { config with logger := l } s requests).map Outcome.response =
      (serve config s' requests).map Outcome.response := by
  induction requests generalizing s s' with
  | nil => rfl
  | cons x requests ih =>
    obtain ⟨occasion, r⟩ := x
    simp only [serve, List.map_cons, List.cons.injEq]
    exact ⟨response_eq_of_not_refuses hrefuses hrefuses', ih⟩

/-- **The log is a complete trail**. While the logger writes, its file gets one line for each
request that is recorded, in order; a request that is turned down or sent elsewhere, is no post or
goes to the tools leaves everything as it is. Where the file does not open, a request changes no
file, and with a logger that loses all its entries none is changed at any time. All responses are
the same with every logger that does not refuse, whatever the files and whether they open. -/
theorem audit_trail (config : Config) (s : State) (hw : config.logger.Writes s.directory)
    (requests : List (Occasion × Request)) :
    (∃ values, Leaves config.maxCodeLength requests (serve config s requests) values ∧
      (∀ v ∈ values, '\n' ∉ write v) ∧
      config.logger.text (s.after config requests).directory =
        config.logger.text s.directory ++ linesOf values) ∧
      (∀ occasion s r, ((respond config occasion s r).response.status ∈ turnedDown ∨
          r.method ≠ "POST" ∨ Route.ofPath? r.target.path = some .tools ∨
          ∃ name, Route.ofPath? r.target.path = some (.tool name)) →
        (respond config occasion s r).state = s) ∧
      (∀ occasion s r, ¬ config.logger.Opens s.directory →
        (respond config occasion s r).state.directory.files = s.directory.files) ∧
      (∀ l s', l.Loses s'.directory requests.length →
        ∀ o ∈ serve { config with logger := l } s' requests,
          o.state.directory.files = s'.directory.files) ∧
      ∀ l s', l.refuses = false →
        (serve { config with logger := l } s' requests).map Outcome.response =
          (serve config s requests).map Outcome.response := by
  refine ⟨?_, fun _ _ _ => state_of_silent, fun _ _ _ => files_respond_of_not_opens, ?_, ?_⟩
  · obtain ⟨values, hleaves, htext⟩ := exists_leaves hw requests
    exact ⟨values, hleaves, fun v _ => newline_not_mem_write v, htext⟩
  · exact fun l s' hl => files_serve_of_loses requests hl
  · exact fun l s' hl => map_response_serve hw.refuses_eq_false hl requests

/-- A configuration whose logger writes to a directory of its own. -/
def Config.recording : Config :=
  ⟨100, folderLogger, depthLimit, depthLimit⟩

/-- The same directories where the system has something against two attempts to open a file. -/
def deniedDirectory : Directory :=
  { folderDirectory with
    denials := [some ⟨13, "Permission denied"⟩, some ⟨28, "No space left on device"⟩] }

theorem loses_deniedDirectory : folderLogger.Loses deniedDirectory 2 := by
  refine .inr ⟨by decide +kernel, .inr fun k hk => ?_⟩
  obtain rfl | rfl : k = 0 ∨ k = 1 := by omega
  · exact ⟨_, rfl⟩
  · exact ⟨_, rfl⟩

theorem recordable_wire :
    Recordable 100 (.post "/analyze" wireBody) .review (.review wireRequest) :=
  ⟨asksReview_own.path, rfl, asksReview_own.accepted, by decide⟩

/-- The same code posted to the path of its own and to the tool. -/
def wireRequests : List (Occasion × Request) :=
  [(⟨"first", 0⟩, .post "/analyze" wireBody),
    (⟨"second", 60⟩, .post "/tools/analyzeVerilog" wireBody)]

theorem audit_trail_wire :
    folderLogger.Writes folderDirectory ∧ folderLogger.Loses deniedDirectory 2 ∧
      (∃ v, Leaves 100 wireRequests (serve .recording ⟨folderDirectory, []⟩ wireRequests) [v] ∧
        folderLogger.text
          (State.after .recording ⟨folderDirectory, []⟩ wireRequests).directory =
            write v ++ ['\n']) ∧
      (∀ occasion s,
        (respond .recording occasion s (.post "/tools/analyzeVerilog" wireBody)).state = s) ∧
      (∀ o ∈ serve .recording ⟨deniedDirectory, []⟩ wireRequests, o.state.directory.files = []) ∧
      (serve .recording ⟨deniedDirectory, []⟩ wireRequests).map Outcome.response =
        (serve .recording ⟨folderDirectory, []⟩ wireRequests).map Outcome.response := by
  obtain ⟨⟨values, hleaves, -, htext⟩, hsilent, -, hlost, hresponses⟩ :=
    audit_trail .recording ⟨folderDirectory, []⟩ writes_folderLogger wireRequests
  have htool : ∃ name, Route.ofPath? (Request.post "/tools/analyzeVerilog" wireBody).target.path =
      some (.tool name) := ⟨_, asksReview_tool.path⟩
  refine ⟨writes_folderLogger, loses_deniedDirectory, ?_, ?_,
    hlost folderLogger ⟨deniedDirectory, []⟩ loses_deniedDirectory,
    hresponses folderLogger ⟨deniedDirectory, []⟩ writes_folderLogger.refuses_eq_false⟩
  · -- the first request is recorded, the second is not, so that there is just one value
    cases hleaves with
    | silent hnot _ => exact absurd recordable_wire (hnot _ _)
    | recorded hr hdescribes hrest =>
      cases hrest with
      | recorded hr' _ _ =>
        obtain ⟨name, hname⟩ := htool
        exact absurd (Option.some.inj (hr'.path.symm.trans hname)) (route_ne_tool _ name)
      | silent hnot hnil =>
        cases hnil
        exact ⟨_, .recorded hr hdescribes (.silent hnot .nil), htext.trans (List.append_nil _)⟩
  · intro occasion s
    exact hsilent occasion s _ (.inr (.inr (.inr htool)))

end HdlReview.Service
