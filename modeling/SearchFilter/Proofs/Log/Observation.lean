import SearchFilter.Proofs.Conversion.Result
import SearchFilter.Session
/-!
# Logging only observes

Calls that neither move the threshold nor ask for it give the same replies under every threshold,
and a higher threshold does no more than to leave lines out.
-/
namespace SearchFilter

theorem run_bind_of {σ α β : Type} {first : StateM σ α} {before after : σ} {value : α}
    (h : first.run before = (value, after)) (next : α → StateM σ β) :
    (first >>= next).run before = (next value).run after := by
  rw [StateT.run_bind, h]
  rfl

namespace Log

theorem visible_append (threshold : Severity) (front back : List Entry) :
    visible threshold (front ++ back) = visible threshold front ++ visible threshold back :=
  List.filter_append front back

/-- What a lower threshold lets through is all that a higher one needs. -/
theorem visible_visible {low high : Severity} (h : low ≤ high) (entries : List Entry) :
    visible high (visible low entries) = visible high entries := by
  unfold visible
  rw [List.filter_filter]
  apply List.filter_congr
  intro entry _
  have hlow (hhigh : high ≤ entry.severity) : low ≤ entry.severity := Nat.le_trans h hhigh
  simpa using hlow

namespace Logger

@[simp] theorem add_nil (logger : Logger) : logger.add [] = logger := by
  simp [add, visible]

@[simp] theorem add_add (logger : Logger) (front back : List Entry) :
    (logger.add front).add back = logger.add (front ++ back) := by
  simp [add, visible_append]

theorem add_of_enabled {logger : Logger} {entry : Entry} (h : logger.threshold ≤ entry.severity) :
    logger.add [entry] = { logger with written := logger.written ++ [entry] } := by
  simp [add, visible, h]

theorem add_of_disabled {logger : Logger} {entry : Entry}
    (h : ¬ logger.threshold ≤ entry.severity) : logger.add [entry] = logger := by
  simp [add, visible, h]

end Logger

namespace Logged

theorem run_isEnabled (severity : Severity) (logger : Logger) :
    (isEnabled severity).run logger = (decide (logger.threshold ≤ severity), logger) := rfl

theorem run_write (entry : Entry) (logger : Logger) :
    (write entry).run logger = ((), logger.add [entry]) := by
  rw [write, run_bind_of (run_isEnabled entry.severity logger)]
  by_cases h : logger.threshold ≤ entry.severity
  · rw [if_pos (decide_eq_true h), Logger.add_of_enabled h]
    rfl
  · rw [if_neg (by simpa using h), Logger.add_of_disabled h]
    rfl

theorem run_writeDetail {entry : Entry} (hdetail : entry.severity = .trace) (logger : Logger) :
    (writeDetail entry).run logger = ((), logger.add [entry]) := by
  rw [writeDetail, run_bind_of (run_isEnabled .trace logger)]
  by_cases h : logger.threshold ≤ .trace
  · rw [if_pos (decide_eq_true h), run_write]
  · rw [if_neg (by simpa using h), Logger.add_of_disabled (hdetail ▸ h)]
    rfl

theorem run_forM_write (entries : List Entry) (logger : Logger) :
    (forM entries write : Logged Unit).run logger = ((), logger.add entries) := by
  induction entries generalizing logger with
  | nil =>
    rw [Logger.add_nil]
    rfl
  | cons entry entries ih =>
    rw [List.forM_cons, run_bind_of (run_write entry logger), ih, Logger.add_add,
      List.singleton_append]

end Logged

end Log

open Log

theorem Traced.run_emit {α : Type} (traced : Traced α) (logger : Logger) :
    traced.emit.run logger = (traced.result, logger.add traced.log) := by
  rw [Traced.emit, run_bind_of (Logged.run_forM_write traced.log logger)]
  rfl

/-- The entries come out the same whether they are written as they are noted or at the end. -/
theorem Traced.emit_bind {α β : Type} (traced : Traced α) (next : α → Traced β) :
    (traced >>= next).emit = traced.emit >>= fun result =>
      match result with
      | .ok value => (next value).emit
      | .error rejection => return .error rejection := by
  apply StateT.ext
  intro logger
  rw [run_emit, run_bind_of (run_emit traced logger)]
  obtain ⟨log, result⟩ := traced
  cases result with
  | ok value =>
    rw [run_emit, Logger.add_add]
    rfl
  | error rejection => rfl

theorem Conversion.run_close (query : Query) (result : Except Rejection Filter) (logger : Logger) :
    (close query result).run logger = ((), logger.add [closing query result]) := by
  cases result with
  -- the line is a detail, as the question before it takes it to be
  | ok filter => exact Logged.run_writeDetail rfl logger
  | error rejection => exact Logged.run_write _ logger

theorem Query.run_convert (settings : Settings) (query : Query) (logger : Logger) :
    (query.convert settings).run logger =
      ((query.toFilter settings).result, logger.add (query.toFilter settings).log) := by
  rw [Query.convert, run_bind_of (Logged.run_writeDetail rfl logger),
    run_bind_of (Traced.run_emit _ _), run_bind_of (Conversion.run_close query _ _),
    Logger.add_add, Logger.add_add]
  rfl

theorem Config.run_loadLogged (path : String) (content : Except IoFault String) (logger : Logger) :
    (loadLogged path content).run logger =
      (load path content, logger.add (Call.loadConfig path content).entries) := by
  rw [loadLogged, Call.entries]
  cases load path content with
  | ok config =>
    simp only []
    rw [run_bind_of (Logged.run_write (config.loaded path) logger)]
    rfl
  | error error =>
    rw [Logger.add_nil]
    rfl

namespace Call

theorem run_perform (call : Call) (logger : Logger) :
    call.perform.run logger =
      ((call.run logger.threshold).reply,
        ⟨(call.run logger.threshold).threshold,
          logger.written ++ (call.run logger.threshold).written⟩) := by
  have hquiet : logger.written ++ visible logger.threshold [] = logger.written :=
    List.append_nil logger.written
  cases call with
  | parseLevel | setLevel | isEnabled =>
    rw [run, entries, hquiet]
    rfl
  | log entry =>
    rw [perform, run_bind_of (Logged.run_write entry logger)]
    rfl
  | event kind fields =>
    rw [perform, run_bind_of (Logged.run_write _ logger)]
    rfl
  | convert settings query =>
    rw [perform, run_bind_of (query.run_convert settings logger)]
    rfl
  | loadConfig path content =>
    rw [perform, run_bind_of (Config.run_loadLogged path content logger)]
    rfl

/-- Whether a call moves the threshold or tells of it. -/
def touchesThreshold : Call → Bool
  | setLevel _ | isEnabled _ => true
  | _ => false

theorem reply_eq_of_not_touches {call : Call} (h : call.touchesThreshold = false)
    (low high : Severity) : call.reply high = call.reply low := by
  cases call with
  | setLevel severity => cases h
  | isEnabled severity => cases h
  | _ => rfl

theorem threshold_eq_of_not_touches {call : Call} (h : call.touchesThreshold = false)
    (before : Severity) : call.threshold before = before := by
  cases call with
  | setLevel severity => cases h
  | _ => rfl

end Call

def repliesFrom (threshold : Severity) (calls : List Call) : List Reply :=
  (runCalls threshold calls).map (·.reply)

/-- The entries that calls made from a threshold on have written. -/
def writtenFrom (threshold : Severity) (calls : List Call) : List Entry :=
  (runCalls threshold calls).flatMap (·.written)

def thresholdAfter (threshold : Severity) (calls : List Call) : Severity :=
  calls.foldl Call.threshold threshold

theorem performAll_cons (call : Call) (calls : List Call) :
    performAll (call :: calls) = do
      let reply ← call.perform
      let replies ← performAll calls
      return reply :: replies := List.mapM_cons

/-- Calls with a logger at hand are the calls of a session that starts under its threshold. -/
theorem run_performAll (calls : List Call) (logger : Logger) :
    (performAll calls).run logger =
      (repliesFrom logger.threshold calls,
        ⟨thresholdAfter logger.threshold calls,
          logger.written ++ writtenFrom logger.threshold calls⟩) := by
  induction calls generalizing logger with
  | nil =>
    rw [writtenFrom, runCalls, List.flatMap_nil, List.append_nil]
    rfl
  | cons call calls ih =>
    -- the other calls start from the logger as the first one leaves it
    rw [performAll_cons, run_bind_of (call.run_perform logger), run_bind_of (ih _),
      List.append_assoc]
    rfl

theorem runCalls_eq_map {calls : List Call}
    (hcalls : ∀ call ∈ calls, call.touchesThreshold = false) (threshold : Severity) :
    runCalls threshold calls = calls.map (·.run threshold) := by
  induction calls with
  | nil => rfl
  | cons call calls ih =>
    have hcall : (call.run threshold).threshold = threshold :=
      Call.threshold_eq_of_not_touches (hcalls call List.mem_cons_self) threshold
    rw [runCalls, hcall, ih fun other h => hcalls other (List.mem_cons_of_mem _ h), List.map_cons]

theorem thresholdAfter_eq {calls : List Call}
    (hcalls : ∀ call ∈ calls, call.touchesThreshold = false) (threshold : Severity) :
    thresholdAfter threshold calls = threshold := by
  induction calls with
  | nil => rfl
  | cons call calls ih =>
    rw [thresholdAfter, List.foldl_cons,
      Call.threshold_eq_of_not_touches (hcalls call List.mem_cons_self)]
    exact ih fun other h => hcalls other (List.mem_cons_of_mem _ h)

theorem repliesFrom_eq {calls : List Call}
    (hcalls : ∀ call ∈ calls, call.touchesThreshold = false) (low high : Severity) :
    repliesFrom high calls = repliesFrom low calls := by
  rw [repliesFrom, repliesFrom, runCalls_eq_map hcalls, runCalls_eq_map hcalls, List.map_map,
    List.map_map]
  apply List.map_congr_left
  intro call hcall
  exact Call.reply_eq_of_not_touches (hcalls call hcall) low high

/-- One threshold decides on all lines. -/
theorem writtenFrom_eq_visible {calls : List Call}
    (hcalls : ∀ call ∈ calls, call.touchesThreshold = false) (threshold : Severity) :
    writtenFrom threshold calls = visible threshold (calls.flatMap Call.entries) := by
  rw [writtenFrom, runCalls_eq_map hcalls, List.flatMap_map, visible, List.filter_flatMap]
  rfl

/-- Calls without a change of the threshold leave it as it is, give the same replies under every
threshold, and write under a higher one those of the lines that are severe enough for it. -/
theorem performAll_under_thresholds {calls : List Call}
    (hcalls : ∀ call ∈ calls, call.touchesThreshold = false) {low high : Severity}
    (hle : low ≤ high) :
    (∀ threshold, (performAll calls).run ⟨threshold, []⟩ =
      (repliesFrom threshold calls, ⟨threshold, writtenFrom threshold calls⟩)) ∧
    repliesFrom high calls = repliesFrom low calls ∧
    writtenFrom high calls =
      (writtenFrom low calls).filter fun entry => high ≤ entry.severity := by
  refine ⟨?_, repliesFrom_eq hcalls low high, ?_⟩
  · intro threshold
    rw [run_performAll, List.nil_append, thresholdAfter_eq hcalls]
  · have hlow : writtenFrom low calls = visible low (calls.flatMap Call.entries) :=
      writtenFrom_eq_visible hcalls low
    calc
      writtenFrom high calls = visible high (calls.flatMap Call.entries) :=
        writtenFrom_eq_visible hcalls high
      _ = visible high (visible low (calls.flatMap Call.entries)) := (visible_visible hle _).symm
      _ = visible high (writtenFrom low calls) := by rw [hlow]

/-- A conversion that meets bounds of no known width before it is rejected, among other calls. -/
theorem performAll_under_thresholds_rejected :
    let query : Query := .boolean
      [⟨.leaf (.numericRange "n" [1] []), .required⟩, ⟨.leaf .matchAll, .optional⟩]
    let calls : List Call :=
      [.convert ⟨"_id", '.'⟩ query, .loadConfig "config.json" (.error .notUtf8),
        .event .configLoaded [("path", "config.json")], .log ⟨.error, "STOPPED", []⟩]
    repliesFrom .warn calls = repliesFrom .trace calls ∧
      (writtenFrom .trace calls).map (·.event) =
        ["TRANSLATE_BEGIN", "RANGE_BOUND_DEGRADED", "RANGE_BOUND_DEGRADED", "TRANSLATE_REJECTED",
          "CONFIG_LOADED", "STOPPED"] ∧
      (writtenFrom .warn calls).map (·.event) =
        ["RANGE_BOUND_DEGRADED", "RANGE_BOUND_DEGRADED", "TRANSLATE_REJECTED", "STOPPED"] := by
  intro query calls
  have hcalls : ∀ call ∈ calls, call.touchesThreshold = false := by decide
  have hle : Severity.trace ≤ Severity.warn := by decide
  obtain ⟨-, hreplies, hwritten⟩ := performAll_under_thresholds hcalls hle
  refine ⟨hreplies, rfl, ?_⟩
  rw [hwritten]
  rfl

end SearchFilter
