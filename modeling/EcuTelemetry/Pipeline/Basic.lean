import EcuTelemetry.Core.BoundedFifo
import EcuTelemetry.Core.Machine

/-!
# The abstract telemetry pipeline

What a telemetry pipeline is for, without threads, locks or machine integers. A producer draws
sample numbers, makes samples and offers them to a bounded queue; a worker takes samples, turns
each into a frame and offers it to a second bounded queue; a sink takes frames and prints them.
Every offer is followed by counting its outcome, in a step of its own. The queues can be flushed
and the counts started afresh at any time.

Samples and frames carry a stamp: their place in the order in which samples are drawn. No step
looks at it.
-/

namespace EcuTelemetry.Pipeline

open EcuTelemetry.Core

/-- A value with the place of its sample among all samples ever drawn. -/
structure Stamped (α : Type*) where
  stamp : ℕ
  val : α
  deriving DecidableEq, Repr

/-- What the producer holds. -/
inductive Hand (α : Type*) where
  | empty
  | drawn (k : ℕ)
  | held (s : Stamped α)
  | offered (s : Stamped α) (ok : Bool)
  deriving DecidableEq, Repr

/-- What the worker holds. -/
inductive Work (α β : Type*) where
  | empty
  | held (s : Stamped α)
  | ready (f : Stamped β)
  | offered (f : Stamped β) (ok : Bool)
  deriving DecidableEq, Repr

/-- A pipeline over samples `α` and frames `β`. -/
structure Pipe (α β : Type*) where
  made : ℕ
  hand : Hand α
  queue : List (Stamped α)
  work : Work α β
  out : List (Stamped β)
  sink : Option (Stamped β)
  deriving DecidableEq, Repr

/-- The four counts kept of the outcomes of offers. -/
inductive Counter where
  | samples
  | drops
  | frames
  | outDrops
  deriving DecidableEq, Repr

/-- What an observer of the pipeline sees. -/
inductive Event (α β : Type*) where
  | drawn (k : ℕ)
  | accepted (s : Stamped α)
  | counted (c : Counter) (k : ℕ)
  | taken (s : Stamped α)
  | outAccepted (f : Stamped β)
  | outTaken (f : Stamped β)
  | printed (f : Stamped β)
  | flushed (s : Stamped α)
  | zeroed
  deriving DecidableEq, Repr

/-- The moves of a pipeline. -/
inductive Op (α β : Type*) where
  | draw
  | make (a : α)
  | offer
  | count
  | take
  | work (b : β)
  | offerOut
  | countOut
  | takeOut
  | print
  | flush
  | flushOut
  | zero
  deriving DecidableEq, Repr

variable {α β : Type*}

/-- The empty pipeline, before anything is drawn. -/
def Pipe.start : Pipe α β := ⟨0, .empty, [], .empty, [], none⟩

/-- The counter that an offer's outcome goes to. -/
def sampleCounter (ok : Bool) : Counter := if ok then .samples else .drops

/-- The counter that an offer of a frame goes to. -/
def frameCounter (ok : Bool) : Counter := if ok then .frames else .outDrops

/-- One move, with queues of capacity `cap` and `capOut`. A move whose party is not at the right
point changes nothing. -/
def Pipe.step (cap capOut : ℕ) (p : Pipe α β) : Op α β → Pipe α β × List (Event α β)
  | .draw =>
    match p.hand with
    | .empty => ({ p with made := p.made + 1, hand := .drawn (p.made + 1) }, [.drawn (p.made + 1)])
    | _      => (p, [])
  | .make a =>
    match p.hand with
    | .drawn k => ({ p with hand := .held ⟨k, a⟩ }, [])
    | _        => (p, [])
  | .offer =>
    match p.hand with
    | .held s =>
      match BoundedFifo.push cap p.queue s with
      | (queue, ok) => ({ p with queue, hand := .offered s ok }, if ok then [.accepted s] else [])
    | _       => (p, [])
  | .count =>
    match p.hand with
    | .offered s ok => ({ p with hand := .empty }, [.counted (sampleCounter ok) s.stamp])
    | _             => (p, [])
  | .take =>
    match p.work, p.queue with
    | .empty, s :: queue => ({ p with queue, work := .held s }, [.taken s])
    | _, _               => (p, [])
  | .work b =>
    match p.work with
    | .held s => ({ p with work := .ready ⟨s.stamp, b⟩ }, [])
    | _       => (p, [])
  | .offerOut =>
    match p.work with
    | .ready f =>
      match BoundedFifo.push capOut p.out f with
      | (out, ok) => ({ p with out, work := .offered f ok }, if ok then [.outAccepted f] else [])
    | _        => (p, [])
  | .countOut =>
    match p.work with
    | .offered f ok => ({ p with work := .empty }, [.counted (frameCounter ok) f.stamp])
    | _             => (p, [])
  | .takeOut =>
    match p.sink, p.out with
    | none, f :: out => ({ p with out, sink := some f }, [.outTaken f])
    | _, _           => (p, [])
  | .print =>
    match p.sink with
    | some f => ({ p with sink := none }, [.printed f])
    | none   => (p, [])
  | .flush    => ({ p with queue := [] }, p.queue.map .flushed)
  | .flushOut => ({ p with out := [] }, [])
  | .zero     => (p, [.zeroed])

/-- The pipeline with queues of capacity `cap` and `capOut`. -/
def pipeline (α β : Type*) (cap capOut : ℕ) : Machine (Pipe α β) (Op α β) (Event α β) :=
  ⟨Pipe.step cap capOut⟩

/-! ### What one move can do -/

/-- Everything one move can do, with what it shows. -/
inductive Move (cap capOut : ℕ) (p : Pipe α β) : Op α β → Pipe α β → List (Event α β) → Prop where
  | still (op : Op α β) : Move cap capOut p op p []
  | draw (h : p.hand = .empty) :
      Move cap capOut p .draw { p with made := p.made + 1, hand := .drawn (p.made + 1) }
        [.drawn (p.made + 1)]
  | make {k : ℕ} (a : α) (h : p.hand = .drawn k) :
      Move cap capOut p (.make a) { p with hand := .held ⟨k, a⟩ } []
  | accept {s : Stamped α} (h : p.hand = .held s) (hroom : p.queue.length < cap) :
      Move cap capOut p .offer { p with queue := p.queue ++ [s], hand := .offered s true }
        [.accepted s]
  | refuse {s : Stamped α} (h : p.hand = .held s) (hfull : cap ≤ p.queue.length) :
      Move cap capOut p .offer { p with hand := .offered s false } []
  | count {s : Stamped α} {ok : Bool} (h : p.hand = .offered s ok) :
      Move cap capOut p .count { p with hand := .empty } [.counted (sampleCounter ok) s.stamp]
  | take {s : Stamped α} {queue : List (Stamped α)} (h : p.work = .empty)
      (hq : p.queue = s :: queue) :
      Move cap capOut p .take { p with queue := queue, work := .held s } [.taken s]
  | work {s : Stamped α} (b : β) (h : p.work = .held s) :
      Move cap capOut p (.work b) { p with work := .ready ⟨s.stamp, b⟩ } []
  | outAccept {f : Stamped β} (h : p.work = .ready f) (hroom : p.out.length < capOut) :
      Move cap capOut p .offerOut { p with out := p.out ++ [f], work := .offered f true }
        [.outAccepted f]
  | outRefuse {f : Stamped β} (h : p.work = .ready f) (hfull : capOut ≤ p.out.length) :
      Move cap capOut p .offerOut { p with work := .offered f false } []
  | countOut {f : Stamped β} {ok : Bool} (h : p.work = .offered f ok) :
      Move cap capOut p .countOut { p with work := .empty } [.counted (frameCounter ok) f.stamp]
  | takeOut {f : Stamped β} {out : List (Stamped β)} (h : p.sink = none) (ho : p.out = f :: out) :
      Move cap capOut p .takeOut { p with out := out, sink := some f } [.outTaken f]
  | print {f : Stamped β} (h : p.sink = some f) :
      Move cap capOut p .print { p with sink := none } [.printed f]
  | flush : Move cap capOut p .flush { p with queue := [] } (p.queue.map .flushed)
  | flushOut : Move cap capOut p .flushOut { p with out := [] } []
  | zero : Move cap capOut p .zero p [.zeroed]

/-- `Move` describes the step function. -/
theorem step_move (cap capOut : ℕ) (p : Pipe α β) (op : Op α β) :
    Move cap capOut p op ((pipeline α β cap capOut).next p op)
      ((pipeline α β cap capOut).emit p op) := by
  simp only [Machine.next, Machine.emit, pipeline]
  cases op with
  | draw => cases h : p.hand <;> simp only [Pipe.step, h] <;> first | exact .still _ | exact .draw h
  | make a =>
    cases h : p.hand <;> simp only [Pipe.step, h] <;> first | exact .still _ | exact .make a h
  | offer =>
    cases h : p.hand with
    | held s =>
      simp only [Pipe.step, h]
      rcases Nat.lt_or_ge p.queue.length cap with hroom | hfull
      · rw [BoundedFifo.push_of_lt hroom]
        exact .accept h hroom
      · rw [BoundedFifo.push_of_le hfull]
        exact .refuse h hfull
    | _ => simp only [Pipe.step, h]; exact .still _
  | count =>
    cases h : p.hand <;> simp only [Pipe.step, h] <;> first | exact .still _ | exact .count h
  | take =>
    cases h : p.work <;> cases hq : p.queue <;> simp only [Pipe.step, h, hq] <;>
      first | exact .still _ | exact .take h hq
  | work b =>
    cases h : p.work <;> simp only [Pipe.step, h] <;> first | exact .still _ | exact .work b h
  | offerOut =>
    cases h : p.work with
    | ready f =>
      simp only [Pipe.step, h]
      rcases Nat.lt_or_ge p.out.length capOut with hroom | hfull
      · rw [BoundedFifo.push_of_lt hroom]
        exact .outAccept h hroom
      · rw [BoundedFifo.push_of_le hfull]
        exact .outRefuse h hfull
    | _ => simp only [Pipe.step, h]; exact .still _
  | countOut =>
    cases h : p.work <;> simp only [Pipe.step, h] <;> first | exact .still _ | exact .countOut h
  | takeOut =>
    cases h : p.sink <;> cases ho : p.out <;> simp only [Pipe.step, h, ho] <;>
      first | exact .still _ | exact .takeOut h ho
  | print =>
    cases h : p.sink <;> simp only [Pipe.step, h] <;> first | exact .still _ | exact .print h
  | flush => exact .flush
  | flushOut => exact .flushOut
  | zero => exact .zero

/-! ### Reading the log -/

/-- The samples the first queue accepted, in order. -/
def acceptedOf (log : List (Event α β)) : List (Stamped α) :=
  log.flatMap fun
    | .accepted s => [s]
    | _           => []

/-- The samples the worker received, in order. -/
def takenOf (log : List (Event α β)) : List (Stamped α) :=
  log.flatMap fun
    | .taken s => [s]
    | _        => []

/-- The frames the second queue accepted, in order. -/
def outAcceptedOf (log : List (Event α β)) : List (Stamped β) :=
  log.flatMap fun
    | .outAccepted f => [f]
    | _              => []

/-- The frames the sink received, in order. -/
def outTakenOf (log : List (Event α β)) : List (Stamped β) :=
  log.flatMap fun
    | .outTaken f => [f]
    | _           => []

/-- The frames printed, in order. -/
def printedOf (log : List (Event α β)) : List (Stamped β) :=
  log.flatMap fun
    | .printed f => [f]
    | _          => []

/-- The samples a flush dropped, in order. -/
def flushedOf (log : List (Event α β)) : List (Stamped α) :=
  log.flatMap fun
    | .flushed s => [s]
    | _          => []

/-- The stamps counted under `c`, in order, over the whole log. -/
def countedOf (c : Counter) (log : List (Event α β)) : List ℕ :=
  log.flatMap fun
    | .counted c' k => if c' = c then [k] else []
    | _             => []

/-- The value of counter `c` after one more event. -/
def tallyStep (c : Counter) (n : ℕ) : Event α β → ℕ
  | .counted c' _ => if c' = c then n + 1 else n
  | .zeroed       => 0
  | _             => n

/-- The value of counter `c` after a log, counting without bound. -/
def tally (c : Counter) (log : List (Event α β)) : ℕ := log.foldl (tallyStep c) 0

section Log

variable (e : Event α β) (log log' : List (Event α β))

@[simp] lemma acceptedOf_nil : acceptedOf ([] : List (Event α β)) = [] := rfl

@[simp] lemma acceptedOf_cons : acceptedOf (e :: log) =
    (match e with | .accepted s => [s] | _ => []) ++ acceptedOf log := rfl

@[simp] lemma acceptedOf_append : acceptedOf (log ++ log') = acceptedOf log ++ acceptedOf log' :=
  List.flatMap_append

@[simp] lemma takenOf_nil : takenOf ([] : List (Event α β)) = [] := rfl

@[simp] lemma takenOf_cons : takenOf (e :: log) =
    (match e with | .taken s => [s] | _ => []) ++ takenOf log := rfl

@[simp] lemma takenOf_append : takenOf (log ++ log') = takenOf log ++ takenOf log' :=
  List.flatMap_append

@[simp] lemma outAcceptedOf_nil : outAcceptedOf ([] : List (Event α β)) = [] := rfl

@[simp] lemma outAcceptedOf_cons : outAcceptedOf (e :: log) =
    (match e with | .outAccepted f => [f] | _ => []) ++ outAcceptedOf log := rfl

@[simp] lemma outAcceptedOf_append :
    outAcceptedOf (log ++ log') = outAcceptedOf log ++ outAcceptedOf log' :=
  List.flatMap_append

@[simp] lemma outTakenOf_nil : outTakenOf ([] : List (Event α β)) = [] := rfl

@[simp] lemma outTakenOf_cons : outTakenOf (e :: log) =
    (match e with | .outTaken f => [f] | _ => []) ++ outTakenOf log := rfl

@[simp] lemma outTakenOf_append : outTakenOf (log ++ log') = outTakenOf log ++ outTakenOf log' :=
  List.flatMap_append

@[simp] lemma printedOf_nil : printedOf ([] : List (Event α β)) = [] := rfl

@[simp] lemma printedOf_cons : printedOf (e :: log) =
    (match e with | .printed f => [f] | _ => []) ++ printedOf log := rfl

@[simp] lemma printedOf_append : printedOf (log ++ log') = printedOf log ++ printedOf log' :=
  List.flatMap_append

@[simp] lemma flushedOf_nil : flushedOf ([] : List (Event α β)) = [] := rfl

@[simp] lemma flushedOf_cons : flushedOf (e :: log) =
    (match e with | .flushed s => [s] | _ => []) ++ flushedOf log := rfl

@[simp] lemma flushedOf_append : flushedOf (log ++ log') = flushedOf log ++ flushedOf log' :=
  List.flatMap_append

@[simp] lemma countedOf_nil (c : Counter) : countedOf c ([] : List (Event α β)) = [] := rfl

@[simp] lemma countedOf_cons (c : Counter) : countedOf c (e :: log) =
    (match e with | .counted c' k => if c' = c then [k] else [] | _ => []) ++ countedOf c log := rfl

@[simp] lemma countedOf_append (c : Counter) :
    countedOf c (log ++ log') = countedOf c log ++ countedOf c log' := List.flatMap_append

@[simp] lemma tally_append (c : Counter) :
    tally c (log ++ log') = log'.foldl (tallyStep c) (tally c log) := List.foldl_append

end Log

/-! ### Flushed samples -/

/-- A reading that skips flushed samples. -/
lemma flatMap_map_flushed {γ : Type*} (f : Event α β → List γ) (h : ∀ s, f (.flushed s) = [])
    (ss : List (Stamped α)) : (ss.map .flushed).flatMap f = [] := by
  induction ss with
  | nil => rfl
  | cons s ss ih => rw [List.map_cons, List.flatMap_cons, h, ih, List.append_nil]

section Flushed

variable (ss : List (Stamped α))

@[simp] lemma acceptedOf_map_flushed :
    acceptedOf (ss.map .flushed : List (Event α β)) = [] := flatMap_map_flushed _ (fun _ => rfl) ss

@[simp] lemma takenOf_map_flushed :
    takenOf (ss.map .flushed : List (Event α β)) = [] := flatMap_map_flushed _ (fun _ => rfl) ss

@[simp] lemma outTakenOf_map_flushed :
    outTakenOf (ss.map .flushed : List (Event α β)) = [] := flatMap_map_flushed _ (fun _ => rfl) ss

@[simp] lemma printedOf_map_flushed :
    printedOf (ss.map .flushed : List (Event α β)) = [] := flatMap_map_flushed _ (fun _ => rfl) ss

@[simp] lemma countedOf_map_flushed (c : Counter) :
    countedOf c (ss.map .flushed : List (Event α β)) = [] := flatMap_map_flushed _ (fun _ => rfl) ss

@[simp] lemma flushedOf_map_flushed :
    flushedOf (ss.map .flushed : List (Event α β)) = ss := by
  induction ss with
  | nil => rfl
  | cons s ss ih => simpa using ih

end Flushed

/-- Flushed samples are not counted. -/
lemma foldl_tallyStep_flushed (c : Counter) (n : ℕ) (ss : List (Stamped α)) :
    (ss.map .flushed : List (Event α β)).foldl (tallyStep c) n = n := by
  induction ss with
  | nil => rfl
  | cons s ss ih => simpa [tallyStep] using ih

end EcuTelemetry.Pipeline
