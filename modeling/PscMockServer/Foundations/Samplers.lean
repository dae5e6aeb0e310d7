import PscMockServer.Foundations.Runs

namespace PscMockServer
namespace Foundations

/-!
# Samplers

A sampler takes a sample once more than an interval has passed since the last one.  It is
polled; each poll reads the clock to see whether a sample is due and, when it is, reads it
again for the instant to remember.  Time passes between the two readings, so a sampler is
not a timer: the next interval begins where the second reading is.
-/

namespace Sampler

/-- The two readings of a poll; the second one is taken only when a sample is due. -/
structure Poll where
  check : Int
  restart : Int

variable (interval : Int)

def due (last : Int) (poll : Poll) : Bool :=
  decide (interval < poll.check - last)

/-- One poll: the instant that is remembered afterwards. -/
def next (last : Int) (poll : Poll) : Int :=
  if due interval last poll then poll.restart else last

/-- The instant remembered after the polls. -/
def lastAfter (start : Int) (polls : List Poll) : Int :=
  runSteps (next interval) start polls

/-- The polls at which a sample is taken. -/
def samples : List Poll -> Int -> List Poll
  | [], _ => []
  | poll :: rest, last =>
      (if due interval last poll then [poll] else []) ++ samples rest (next interval last poll)

/-- When the last sample was taken, or the set-up when there was none. -/
def lastSample (start : Int) (polls : List Poll) : Int :=
  ((samples interval polls start).getLast?).elim start Poll.restart

/-- The clock readings that are taken, in their order. -/
def readings : List Poll -> Int -> List Int
  | [], _ => []
  | poll :: rest, last =>
      poll.check :: ((if due interval last poll then [poll.restart] else []) ++
        readings rest (next interval last poll))

/-- The clock does not go back, from the set-up on. -/
def Forward (start : Int) (polls : List Poll) : Prop :=
  (start :: readings interval polls start).Pairwise (fun earlier later => earlier ≤ later)

variable {interval} {start : Int}

theorem samples_append (front rest : List Poll) :
    samples interval (front ++ rest) start =
      samples interval front start ++ samples interval rest (lastAfter interval start front) := by
  induction front generalizing start with
  | nil => rfl
  | cons poll front inductionHypothesis =>
      rw [List.cons_append, samples, inductionHypothesis, samples, List.append_assoc]
      rfl

theorem samples_snoc (front : List Poll) (poll : Poll) :
    samples interval (front ++ [poll]) start = samples interval front start ++
      if due interval (lastAfter interval start front) poll then [poll] else [] := by
  rw [samples_append, samples, samples, List.append_nil]

theorem lastAfter_snoc (front : List Poll) (poll : Poll) :
    lastAfter interval start (front ++ [poll]) = next interval (lastAfter interval start front) poll :=
  runSteps_snoc _ _ _ _

/-- What a sampler remembers is its last sample. -/
theorem lastAfter_eq_lastSample (polls : List Poll) :
    lastAfter interval start polls = lastSample interval start polls := by
  induction polls using List.reverseRecOn with
  | nil => rfl
  | append_singleton front poll inductionHypothesis =>
      rw [lastAfter_snoc, next, lastSample, samples_snoc]
      cases due interval (lastAfter interval start front) poll with
      | true => rw [if_pos rfl, if_pos rfl, List.getLast?_concat, Option.elim_some]
      | false =>
          rw [if_neg Bool.false_ne_true, if_neg Bool.false_ne_true, List.append_nil, inductionHypothesis]
          rfl

/-- Consecutive samples, and the first one and the set-up, are more than the interval
apart. -/
def Spaced (interval start : Int) : List Poll -> Prop
  | [] => True
  | poll :: rest => interval < poll.check - start ∧ Spaced interval poll.restart rest

theorem samples_spaced (polls : List Poll) : Spaced interval start (samples interval polls start) := by
  induction polls generalizing start with
  | nil => exact trivial
  | cons poll rest inductionHypothesis =>
      rw [samples, next]
      cases isDue : due interval start poll with
      | true =>
          rw [if_pos rfl, if_pos rfl, List.singleton_append]
          exact ⟨of_decide_eq_true isDue, inductionHypothesis⟩
      | false =>
          rw [if_neg Bool.false_ne_true, if_neg Bool.false_ne_true, List.nil_append]
          exact inductionHypothesis

/-- On a clock that does not go back the second reading of a sample is not before its
first. -/
theorem samples_restart {polls : List Poll} (forward : Forward interval start polls) :
    ∀ sample ∈ samples interval polls start, sample.check ≤ sample.restart := by
  induction polls generalizing start with
  | nil => exact fun sample member => nomatch member
  | cons poll rest inductionHypothesis =>
      rw [Forward, readings] at forward
      have tail := (List.pairwise_cons.mp forward).2
      intro sample member
      rw [samples, List.mem_append] at member
      cases isDue : due interval start poll with
      | true =>
          simp only [next, isDue, if_true, List.singleton_append] at tail member
          rcases member with here | later
          · rw [List.mem_singleton.mp here]
            exact (List.pairwise_cons.mp tail).1 _ List.mem_cons_self
          · exact inductionHypothesis (List.pairwise_cons.mp tail).2 sample later
      | false =>
          simp only [next, isDue, Bool.false_eq_true, if_false, List.nil_append, List.not_mem_nil,
            false_or] at tail member
          refine inductionHypothesis ?_ sample member
          rw [Forward, List.pairwise_cons]
          exact ⟨fun reading listed => (List.pairwise_cons.mp forward).1 reading
            (List.mem_cons_of_mem _ (by simpa [next, isDue] using listed)), (List.pairwise_cons.mp tail).2⟩

/-- So many samples took at least so much time. -/
theorem Spaced.elapsed {taken : List Poll} (spaced : Spaced interval start taken)
    (ordered : ∀ sample ∈ taken, sample.check ≤ sample.restart) :
    (taken.length : Int) * interval ≤ (taken.getLast?).elim start Poll.restart - start := by
  induction taken generalizing start with
  | nil => simp
  | cons sample rest inductionHypothesis =>
      have later := inductionHypothesis spaced.2
        (fun other member => ordered other (List.mem_cons_of_mem _ member))
      have here := ordered sample List.mem_cons_self
      have waited := spaced.1
      have last : ((sample :: rest).getLast?).elim start Poll.restart =
          (rest.getLast?).elim sample.restart Poll.restart := by
        rw [List.getLast?_cons]
        cases rest.getLast? <;> rfl
      have count : ((sample :: rest).length : Int) = rest.length + 1 := rfl
      rw [last, count, Int.add_mul, Int.one_mul]
      omega

/-- The rate of a sampler: the samples up to the polls times the interval fit into the time
from the set-up to the last sample. -/
theorem samples_rate {polls : List Poll} (forward : Forward interval start polls) :
    ((samples interval polls start).length : Int) * interval ≤ lastSample interval start polls - start :=
  (samples_spaced polls).elapsed (samples_restart forward)

end Sampler

end Foundations
end PscMockServer
