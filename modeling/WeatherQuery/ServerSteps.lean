import WeatherQuery.ServerModel
import WeatherQuery.Slots

/-!
What one step of the server can do, said once.
-/

namespace WeatherQuery.ServerSteps

open WeatherQuery.Traced WeatherQuery.HttpModel WeatherQuery.ServerModel

inductive Trans (s : St) : Act → St → Prop
  | arrive : Trans s .arrive { s with backlog := s.backlog + 1, pending := true }
  | report {evs : List Ready} (hm : s.main = .waiting) (hr : Reportable s evs) :
      Trans s (.epollWait evs) (report s evs)
  | timeout (hm : s.main = .waiting) : Trans s .epollWaitTimeout s
  | waitFails (hm : s.main = .waiting) : Trans s .epollWaitFails { s with main := .stopped }
  | accept {fd : ℕ} (hm : s.main = .accepting) (hb : 0 < s.backlog)
      (hfd : fd ∉ s.opened.map Conn.fd) :
      Trans s (.accept fd) { s with
        main := .registering ⟨fd, s.gens⟩, backlog := s.backlog - 1
        opened := ⟨fd, s.gens⟩ :: s.opened, gens := s.gens + 1 }
  | acceptAgain (hm : s.main = .accepting) (hb : s.backlog = 0) :
      Trans s .acceptAgain { s with main := .walking }
  | acceptFails {aborted : Bool} (hm : s.main = .accepting) :
      Trans s (.acceptFails aborted)
        { s with main := .walking, backlog := s.backlog - aborted.toNat }
  | register {c : Conn} (hm : s.main = .registering c) :
      Trans s (.epollAdd true) { s with main := .accepting, armed := c :: s.armed }
  | registerFails {c : Conn} (hm : s.main = .registering c) :
      Trans s (.epollAdd false) { s with main := .accepting, lost := c :: s.lost }
  | listen {added : Bool} {rest : List Ready} (hm : s.main = .walking)
      (hb : s.batch = .listenfd :: rest) :
      Trans s (.walk added) { s with main := .accepting, batch := rest }
  | unsound {added : Bool} {c : Conn} {rest : List Ready} (hm : s.main = .walking)
      (hb : s.batch = .client c false :: rest) :
      Trans s (.walk added) ({ s with batch := rest }.close c)
  | added {c : Conn} {rest : List Ready} (hm : s.main = .walking)
      (hb : s.batch = .client c true :: rest) :
      Trans s (.walk true) { s with batch := rest, queue := s.queue ++ [c] }
  | refused {c : Conn} {rest : List Ready} (hm : s.main = .walking)
      (hb : s.batch = .client c true :: rest) :
      Trans s (.walk false) { s with batch := rest, lost := c :: s.lost }
  | walked (hm : s.main = .walking) (hb : s.batch = []) :
      Trans s .walked { s with main := .waiting }
  | take {i : ℕ} {c : Conn} {host : Host} {fuel : ℕ} {w : World} (hc : c ∈ s.queue)
      (hi : s.workers[i]? = some none) :
      Trans s (.take i c host fuel w) { s with
        queue := s.queue.erase c
        workers := s.workers.set i (some (startJob c (acceptRequest host fuel w))) }
  | use {i : ℕ} {job : Job} {rest : List SockOp} (hi : s.workers[i]? = some (some job))
      (ht : job.todo = .use :: rest) :
      Trans s (.call i) { s.use job.conn with
        workers := s.workers.set i (some { job with todo := rest }) }
  | close {i : ℕ} {job : Job} {rest : List SockOp} (hi : s.workers[i]? = some (some job))
      (ht : job.todo = .close :: rest) :
      Trans s (.call i) { s.close job.conn with
        workers := s.workers.set i (some { job with todo := rest, closed := true }) }
  | finish {i : ℕ} {job : Job} (hi : s.workers[i]? = some (some job)) (ht : job.todo = [])
      (hr : job.returns = true) :
      Trans s (.finish i) { s with
        workers := s.workers.set i none
        lost := if job.closed then s.lost else job.conn :: s.lost }
  | drop {c : Conn} (hm : s.main = .stopped) (hc : c ∈ s.queue) :
      Trans s (.drop c) { s with queue := s.queue.erase c, lost := c :: s.lost }

variable {s t : St} {a : Act}

lemma walkStep_trans {b : Bool} (hm : s.main = .walking) (h : walkStep b s = some t) :
    Trans s (.walk b) t := by
  unfold walkStep at h
  split at h
  case h_1 => cases h
  case h_2 rest hb =>
    cases h
    exact .listen hm hb
  case h_3 c rest hb =>
    cases h
    exact .unsound hm hb
  case h_4 c rest hb =>
    cases b with
    | true =>
      cases h
      exact .added hm hb
    | false =>
      cases h
      exact .refused hm hb

lemma callStep_trans {i : ℕ} {job : Job} (hi : s.workers[i]? = some (some job))
    (h : callStep i job s = some t) : Trans s (.call i) t := by
  unfold callStep at h
  split at h
  case h_1 => cases h
  case h_2 rest ht =>
    cases h
    exact .use hi ht
  case h_3 rest ht =>
    cases h
    exact .close hi ht

/-- **One step.** -/
theorem step_trans (h : step s a = some t) : Trans s a t := by
  cases a with
  | arrive =>
    cases h
    exact .arrive
  | epollWait evs =>
    simp only [step, Option.ite_none_right_eq_some, Option.some.injEq] at h
    obtain ⟨⟨hm, hr⟩, rfl⟩ := h
    exact .report hm hr
  | epollWaitTimeout =>
    simp only [step, Option.ite_none_right_eq_some, Option.some.injEq] at h
    obtain ⟨hm, rfl⟩ := h
    exact .timeout hm
  | epollWaitFails =>
    simp only [step, Option.ite_none_right_eq_some, Option.some.injEq] at h
    obtain ⟨hm, rfl⟩ := h
    exact .waitFails hm
  | accept fd =>
    simp only [step, acceptStep, Option.ite_none_right_eq_some, Option.some.injEq] at h
    obtain ⟨hm, ⟨hb, hfd⟩, rfl⟩ := h
    exact .accept hm hb hfd
  | acceptAgain =>
    simp only [step, Option.ite_none_right_eq_some, Option.some.injEq] at h
    obtain ⟨⟨hm, hb⟩, rfl⟩ := h
    exact .acceptAgain hm hb
  | acceptFails aborted =>
    simp only [step, Option.ite_none_right_eq_some, Option.some.injEq] at h
    obtain ⟨hm, rfl⟩ := h
    exact .acceptFails hm
  | epollAdd ok =>
    simp only [step] at h
    split at h
    case h_1 c hm =>
      cases ok with
      | true =>
        cases h
        exact .register hm
      | false =>
        cases h
        exact .registerFails hm
    case h_2 => cases h
  | walk b =>
    simp only [step, Option.ite_none_right_eq_some] at h
    exact walkStep_trans h.1 h.2
  | walked =>
    simp only [step, Option.ite_none_right_eq_some, Option.some.injEq] at h
    obtain ⟨⟨hm, hb⟩, rfl⟩ := h
    exact .walked hm hb
  | take i c host fuel w =>
    simp only [step, Option.ite_none_right_eq_some, Option.some.injEq] at h
    obtain ⟨⟨hc, hi⟩, rfl⟩ := h
    exact .take hc hi
  | call i =>
    simp only [step] at h
    split at h
    case h_1 job hi => exact callStep_trans hi h
    case h_2 => cases h
  | finish i =>
    simp only [step] at h
    split at h
    case h_1 job hi =>
      simp only [finishStep, Option.ite_none_right_eq_some, Option.some.injEq] at h
      obtain ⟨⟨ht, hr⟩, rfl⟩ := h
      exact .finish hi ht hr
    case h_2 => cases h
  | drop c =>
    simp only [step, Option.ite_none_right_eq_some, Option.some.injEq] at h
    obtain ⟨⟨hm, hc⟩, rfl⟩ := h
    exact .drop hm hc

end WeatherQuery.ServerSteps
