import Mathlib.Data.Nat.Notation

/-!
# The metrics registry

The counters of `MetricsRegistry`.  With a Redis client the job counters are those that all
processes share in Redis, the others are always those of the process.  The sums of the durations
are left out, how many durations were observed is not.
-/

namespace MarketplacePipeline

/-- The job counters, of a process or in Redis. -/
structure JobCounters where
  submitted : ℕ := 0
  completed : ℕ := 0
  failed : ℕ := 0
  deriving DecidableEq

/-- A registry, together with the counters in Redis. -/
structure MetricsRegistry where
  /-- `self._redis is not None`. -/
  redis : Bool := false
  /-- `jobs_submitted`, `jobs_completed` and `jobs_failed`. -/
  jobs : JobCounters := {}
  /-- The values of the `_REDIS_KEYS`. -/
  redisJobs : JobCounters := {}
  httpRequests : ℕ := 0
  httpDurationCount : ℕ := 0
  jobDurationCount : ℕ := 0
  deriving DecidableEq

namespace MetricsRegistry

/-- A job counter moves: in Redis if there is one, else in the process. -/
def updateJobs (f : JobCounters → JobCounters) (m : MetricsRegistry) : MetricsRegistry :=
  if m.redis then { m with redisJobs := f m.redisJobs } else { m with jobs := f m.jobs }

/-- `inc_submitted()`. -/
def incSubmitted : MetricsRegistry → MetricsRegistry :=
  updateJobs fun c => { c with submitted := c.submitted + 1 }

/-- `inc_completed()`. -/
def incCompleted : MetricsRegistry → MetricsRegistry :=
  updateJobs fun c => { c with completed := c.completed + 1 }

/-- `inc_failed()`. -/
def incFailed : MetricsRegistry → MetricsRegistry :=
  updateJobs fun c => { c with failed := c.failed + 1 }

/-- `inc_http()`. -/
def incHttp (m : MetricsRegistry) : MetricsRegistry := { m with httpRequests := m.httpRequests + 1 }

/-- `observe_http_duration_ms(...)`. -/
def observeHttpDuration (m : MetricsRegistry) : MetricsRegistry :=
  { m with httpDurationCount := m.httpDurationCount + 1 }

/-- `observe_job_duration_seconds(...)`. -/
def observeJobDuration (m : MetricsRegistry) : MetricsRegistry :=
  { m with jobDurationCount := m.jobDurationCount + 1 }

/-- The job counters that `render_prometheus()` shows, by `_job_counter`. -/
def shownJobs (m : MetricsRegistry) : JobCounters := if m.redis then m.redisJobs else m.jobs

@[simp] theorem shownJobs_updateJobs (f : JobCounters → JobCounters) (m : MetricsRegistry) :
    (m.updateJobs f).shownJobs = f m.shownJobs := by
  unfold updateJobs shownJobs
  by_cases h : m.redis = true
  · simp only [h, if_true]
  · simp only [h, Bool.false_eq_true, if_false]

@[simp] theorem shownJobs_incSubmitted (m : MetricsRegistry) :
    m.incSubmitted.shownJobs = { m.shownJobs with submitted := m.shownJobs.submitted + 1 } :=
  shownJobs_updateJobs _ m

@[simp] theorem shownJobs_incCompleted (m : MetricsRegistry) :
    m.incCompleted.shownJobs = { m.shownJobs with completed := m.shownJobs.completed + 1 } :=
  shownJobs_updateJobs _ m

@[simp] theorem shownJobs_incFailed (m : MetricsRegistry) :
    m.incFailed.shownJobs = { m.shownJobs with failed := m.shownJobs.failed + 1 } :=
  shownJobs_updateJobs _ m

@[simp] theorem shownJobs_observeJobDuration (m : MetricsRegistry) :
    m.observeJobDuration.shownJobs = m.shownJobs := rfl

end MetricsRegistry

end MarketplacePipeline
