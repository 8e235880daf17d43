import XiraNet.Gateway.Retry

/-!
# The retry loop

`RetryPolicy::execute` of `gateway/retry.rs` with everything it does: the requests that it sends,
the error that it keeps from one attempt to the next, and the `expect` behind the loop. The pauses
between attempts are left out.

* `executeRun_eq`: the loop sends the request once for every attempt up to the one that decides.
* `executeRun_returned`: what it returns is what `execute` returns.
* `executeRun_contract`: how often it sends, what, and why.
-/

namespace XiraNet

namespace RetryPolicy

/-- What a call of `execute` did: the requests that it sent, each with what became of it, and what
it returned. Nothing is returned when the `expect` behind the loop panics. -/
structure Execution where
  sends : List (UpstreamRequest × SendOutcome)
  returned : Option SendOutcome

/-- One more send before the others. -/
def Execution.prepend (send : UpstreamRequest × SendOutcome) (run : Execution) : Execution :=
  { run with sends := send :: run.sends }

/-- The loop of `execute` over the attempts that are left, with `last_error`. -/
def executeFrom (maxRetries : ℕ) (send : ℕ → UpstreamRequest → SendOutcome) (method url : String)
    (headers : HeaderMap) (body : Option (List UInt8)) :
    List ℕ → Option SendError → Execution
  | [], lastError => ⟨[], lastError.map .error⟩
  | attempt :: attempts, _ =>
      let retryableMethod := isRequestRetryable method headers
      -- Every attempt builds its request anew.
      let request : UpstreamRequest := { method, url, headers, body }
      match send attempt request with
      | .ok resp =>
          if retryableMethod && isServerError resp.status && attempt < maxRetries then
            (executeFrom maxRetries send method url headers body attempts none).prepend
              (request, .ok resp)
          else ⟨[(request, .ok resp)], some (.ok resp)⟩
      | .error e =>
          if retryableMethod && (e.isConnect || e.isTimeout) && attempt < maxRetries then
            (executeFrom maxRetries send method url headers body attempts (some e)).prepend
              (request, .error e)
          else ⟨[(request, .error e)], some (.error e)⟩

/-- A call of `execute`. The attempts are numbered from zero to `max_retries`, both included. -/
def executeRun (maxRetries : ℕ) (send : ℕ → UpstreamRequest → SendOutcome) (method url : String)
    (headers : HeaderMap) (body : Option (List UInt8)) : Execution :=
  executeFrom maxRetries send method url headers body (List.range' 0 (maxRetries + 1)) none

section

variable {maxRetries : ℕ} {send : ℕ → UpstreamRequest → SendOutcome} {method url : String}
  {headers : HeaderMap} {body : Option (List UInt8)}

/-- An attempt that is not retried ends the loop. -/
theorem executeFrom_stop {attempt : ℕ} (attempts : List ℕ) (lastError : Option SendError)
    (hstop : attempt < maxRetries → (isRequestRetryable method headers &&
      worthRetrying (send attempt ⟨method, url, headers, body⟩)) = false) :
    executeFrom maxRetries send method url headers body (attempt :: attempts) lastError =
      ⟨[(⟨method, url, headers, body⟩, send attempt ⟨method, url, headers, body⟩)],
        some (send attempt ⟨method, url, headers, body⟩)⟩ := by
  have hcond : (isRequestRetryable method headers &&
      worthRetrying (send attempt ⟨method, url, headers, body⟩) &&
        decide (attempt < maxRetries)) = false := by
    by_cases hlt : attempt < maxRetries
    · rw [hstop hlt, Bool.false_and]
    · rw [decide_eq_false hlt, Bool.and_false]
  rw [executeFrom]
  cases hsend : send attempt ⟨method, url, headers, body⟩ with
  | ok resp =>
      rw [hsend] at hcond
      exact if_neg (Bool.eq_false_iff.mp hcond)
  | error e =>
      rw [hsend] at hcond
      exact if_neg (Bool.eq_false_iff.mp hcond)

/-- An attempt that is retried is followed by the rest of the loop. -/
theorem executeFrom_retry {attempt : ℕ} (attempts : List ℕ) (lastError : Option SendError)
    (hlt : attempt < maxRetries) (hretry : (isRequestRetryable method headers &&
      worthRetrying (send attempt ⟨method, url, headers, body⟩)) = true) :
    ∃ lastError', executeFrom maxRetries send method url headers body (attempt :: attempts)
        lastError =
      (executeFrom maxRetries send method url headers body attempts lastError').prepend
        (⟨method, url, headers, body⟩, send attempt ⟨method, url, headers, body⟩) := by
  rw [executeFrom]
  cases hsend : send attempt ⟨method, url, headers, body⟩ with
  | ok resp =>
      rw [hsend] at hretry
      exact ⟨none, if_pos (by simpa [hlt, worthRetrying] using hretry)⟩
  | error e =>
      rw [hsend] at hretry
      exact ⟨some e, if_pos (by simpa [hlt, worthRetrying] using hretry)⟩

/-- The loop from attempt `attempt` on, where the attempt `n` places later decides. -/
theorem executeFrom_eq {left attempt n : ℕ} (hleft : attempt + left = maxRetries)
    (h : Decides left (isRequestRetryable method headers)
      (fun m => send (attempt + m) ⟨method, url, headers, body⟩) n) (lastError : Option SendError) :
    executeFrom maxRetries send method url headers body (List.range' attempt (left + 1)) lastError =
      ⟨(List.range' attempt (n + 1)).map fun i =>
          (⟨method, url, headers, body⟩, send i ⟨method, url, headers, body⟩),
        some (send (attempt + n) ⟨method, url, headers, body⟩)⟩ := by
  induction n generalizing left attempt lastError with
  | zero =>
      have hstop : attempt < maxRetries → (isRequestRetryable method headers &&
          worthRetrying (send attempt ⟨method, url, headers, body⟩)) = false :=
        fun hlt => h.final (by omega)
      rw [List.range'_succ, executeFrom_stop _ _ hstop]
      rfl
  | succ n ih =>
      -- This attempt is retried, so it is not the last one.
      have hpos := h.le_maxRetries
      obtain ⟨left, rfl⟩ := Nat.exists_eq_succ_of_ne_zero (Nat.ne_zero_of_lt hpos)
      have hrest : Decides left (isRequestRetryable method headers)
          (fun m => send (attempt + 1 + m) ⟨method, url, headers, body⟩) n :=
        @Decides.next _ (fun m => send m ⟨method, url, headers, body⟩) _ _ _ h
      have hshift : attempt + 1 + n = attempt + (n + 1) := by omega
      have hretry : (isRequestRetryable method headers &&
          worthRetrying (send attempt ⟨method, url, headers, body⟩)) = true :=
        h.retried 0 (Nat.succ_pos n)
      have hlt : attempt < maxRetries := by omega
      obtain ⟨lastError', heq⟩ := executeFrom_retry (List.range' (attempt + 1) (left + 1))
        lastError hlt hretry
      rw [List.range'_succ, heq, ih (by omega) hrest, hshift]
      rfl

/-- The call of `execute` in which attempt `n` decides. -/
theorem executeRun_eq {n : ℕ} (h : Decides maxRetries (isRequestRetryable method headers)
      (fun m => send m ⟨method, url, headers, body⟩) n) :
    executeRun maxRetries send method url headers body =
      ⟨(List.range' 0 (n + 1)).map fun i =>
          (⟨method, url, headers, body⟩, send i ⟨method, url, headers, body⟩),
        some (send n ⟨method, url, headers, body⟩)⟩ := by
  have hzero : Decides maxRetries (isRequestRetryable method headers)
      (fun m => send (0 + m) ⟨method, url, headers, body⟩) n := by
    simpa only [Nat.zero_add] using h
  have hloop := executeFrom_eq (Nat.zero_add maxRetries) hzero none
  rwa [Nat.zero_add] at hloop

end

/-- The call returns what `execute` returns. -/
theorem executeRun_returned (maxRetries : ℕ) (send : ℕ → UpstreamRequest → SendOutcome)
    (request : UpstreamRequest) :
    (executeRun maxRetries send request.method request.url request.headers request.body).returned =
      some (execute maxRetries send request) := by
  obtain ⟨n, hn⟩ := exists_decides maxRetries (isRequestRetryable request.method request.headers)
    fun m => send m request
  rw [executeRun_eq hn, execute_eq hn]

/-- What callers rely on: how many requests a call sends and which, why it sends another one, and
what it returns. -/
structure Contract (maxRetries : ℕ) (send : ℕ → UpstreamRequest → SendOutcome)
    (method url : String) (headers : HeaderMap) (body : Option (List UInt8)) (run : Execution) :
    Prop where
  pos : 1 ≤ run.sends.length
  le : run.sends.length ≤ maxRetries + 1
  once : isRequestRetryable method headers = false → run.sends.length = 1
  /-- All sends carry the same method, headers and body, and their outcomes come in order. -/
  same : ∀ i s, run.sends[i]? = some s →
    s.1 = ⟨method, url, headers, body⟩ ∧ s.2 = send i s.1
  /-- What comes before a further send. -/
  further : ∀ i s, run.sends[i]? = some s → i + 1 < run.sends.length →
    isRequestRetryable method headers = true ∧ worthRetrying s.2 = true
  /-- The last outcome is returned; in particular the `expect` is not reached. -/
  returned : ∃ last, run.sends.getLast? = some last ∧ run.returned = some last.2
  /-- An outcome that may be retried is returned only when no attempt is left. -/
  exhausted : ∀ last, run.sends.getLast? = some last → isRequestRetryable method headers = true →
    worthRetrying last.2 = true → run.sends.length = maxRetries + 1

/-- Every call meets the contract. -/
theorem executeRun_contract (maxRetries : ℕ) (send : ℕ → UpstreamRequest → SendOutcome)
    (method url : String) (headers : HeaderMap) (body : Option (List UInt8)) :
    Contract maxRetries send method url headers body
      (executeRun maxRetries send method url headers body) := by
  obtain ⟨n, hn⟩ := exists_decides maxRetries (isRequestRetryable method headers)
    fun m => send m ⟨method, url, headers, body⟩
  rw [executeRun_eq hn]
  -- The sends are those of the attempts up to the one that decides.
  have hsends : ∀ {i : ℕ} {s : UpstreamRequest × SendOutcome},
      ((List.range' 0 (n + 1)).map fun i => ((⟨method, url, headers, body⟩ : UpstreamRequest),
        send i ⟨method, url, headers, body⟩))[i]? = some s →
      s = (⟨method, url, headers, body⟩, send i ⟨method, url, headers, body⟩) := by
    intro i s hs
    rw [List.getElem?_map, Option.map_eq_some_iff] at hs
    obtain ⟨j, hj, rfl⟩ := hs
    obtain ⟨_, rfl⟩ := List.getElem?_eq_some_iff.mp hj
    simp
  have hlast : ((List.range' 0 (n + 1)).map fun i =>
      ((⟨method, url, headers, body⟩ : UpstreamRequest),
        send i ⟨method, url, headers, body⟩)).getLast? =
      some (⟨method, url, headers, body⟩, send n ⟨method, url, headers, body⟩) := by
    rw [List.range'_concat, List.map_append, List.getLast?_append]
    simp
  constructor
  case pos => simp
  case le => simpa using hn.le_maxRetries
  case once =>
    intro hmethod
    have hzero : n = 0 := by
      by_contra hne
      have hretried := hn.retried 0 (Nat.pos_of_ne_zero hne)
      rw [hmethod, Bool.false_and] at hretried
      cases hretried
    simp [hzero]
  case same =>
    intro i s hs
    rw [hsends hs]
    exact ⟨rfl, rfl⟩
  case further =>
    intro i s hs hi
    have hi : i < n := by simpa using hi
    rw [hsends hs]
    exact Bool.and_eq_true_iff.mp (hn.retried i hi)
  case returned => exact ⟨_, hlast, rfl⟩
  case exhausted =>
    intro last hend hmethod hworth
    cases hlast.symm.trans hend
    have hall : ¬ n < maxRetries := by
      intro hlt
      have hfinal := hn.final hlt
      rw [hmethod, Bool.true_and] at hfinal
      exact absurd hworth (Bool.eq_false_iff.mp hfinal)
    simpa using le_antisymm hn.le_maxRetries (not_lt.mp hall)

end RetryPolicy

end XiraNet
