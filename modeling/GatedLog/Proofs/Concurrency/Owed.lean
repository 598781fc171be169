import GatedLog.Proofs.Concurrency.Critical
import GatedLog.Proofs.Concurrency.Relay

/-!
# Emissions that abort, call by call

A call brings about at most one emission of the highest severity: its own, if
it emits with that severity, or the report of bad tags, if it initializes the
context as the first one.  This is what the call owes.  What has been received
of it at some moment is a beginning of its lines followed by the call of the
aborter, and all of it goes to the logger and the aborter of one context, the
one that the emission found under the lock.
-/

namespace GatedLog

/-- The lines of an emission, and then the call of the aborter of its context. -/
def Emission.withAbort (emission : Emission) : List Reception :=
  emission.lines ++ [.abort emission.context.aborter emission.message]

namespace Concurrency

/-- What was received of an emission of the highest severity, or by an aborter. -/
def Happening.aborting? : Happening → Option Reception
  | .event (.line logger line _) =>
      if line.severity.aborts then some (.line logger line) else none
  | .event (.abort aborter message) => some (.abort aborter message)
  | .threshold _ _ => none

/-- What a log has of emissions of the highest severity by one call of one thread. -/
def abortingOf (log : List Entry) (thread call : Nat) : List Reception :=
  (log.filter fun entry => entry.thread = thread && entry.call = call).filterMap
    fun entry => entry.happening.aborting?

namespace Delivery

/-- A delivery as an emission in a context. -/
def emissionIn (delivery : Delivery) (context : Context) : Emission :=
  ⟨context, delivery.header, delivery.message⟩

/-- A delivery, if its severity is the highest. -/
def aborting? (delivery : Delivery) : Option Delivery :=
  if delivery.header.severity.aborts then some delivery else none

/-- The report of bad tags on its way to the logger. -/
def ofReport (site : Site) (problem : TagsError) : Delivery :=
  ⟨(Initialization.report site problem).toHeader,
    (Initialization.report site problem).message, none⟩

end Delivery

/--
What a call owes to an aborter.  An initialization owes the report that it
would make if those before it in the history had been made one after the other.
-/
inductive Owes
    (host : Host)
    (history : List Admission)
    (index position : Nat) :
    Call → Option Delivery → Prop where
  | emission
      {call : Call}
      {delivery : Delivery}
      (delivers : call.delivery? = some delivery) :
      Owes host history index position call delivery.aborting?
  | report
      {request : Initialization}
      {earlier later : List Admission}
      (history_eq : history = earlier ++ ⟨index, position, request⟩ :: later) :
      Owes host history index position (.setUp request)
        ((request.apply (contextAfterAll host.context earlier)).1.map
          (Delivery.ofReport host.reportSite))
  | nothing
      {call : Call}
      (silent : call.delivery? = none)
      (no_request : call.request? = none) :
      Owes host history index position call none

/-- The pair of a context is the original one, or that of one initialization. -/
def Installed (origin : Context) (history : List Admission) (context : Context) : Prop :=
  (context.logger = origin.logger ∧ context.aborter = origin.aborter) ∨
    ∃ admission ∈ history,
      context.logger = admission.request.logger ∧
        context.aborter = admission.request.aborter

/-- What has been received of what is owed: all of it if it has to be whole. -/
inductive Received (installed : Context → Prop) (whole : Prop) :
    Option Delivery → List Reception → Prop where
  | nothing : Received installed whole none []
  | emission
      {delivery : Delivery}
      {taken : Context}
      {receptions : List Reception}
      (found : installed taken)
      (beginning : receptions <+: (delivery.emissionIn taken).withAbort)
      (complete : whole → receptions = (delivery.emissionIn taken).withAbort) :
      Received installed whole (some delivery) receptions

/-- A thread is in the call of an aborter, or announces that call. -/
inductive Activity.Calling (aborter : Aborter) (message : String) : Activity → Prop where
  | aborting : Calling aborter message (.aborting aborter message)
  | announced : Calling aborter message (.announced aborter message)
  | waiting
      {delivery : Delivery}
      (announces : delivery.announces = some (aborter, message))
      (returns : delivery.header.severity.aborts = false) :
      Calling aborter message (.waiting delivery)
  | dispatching
      {delivery : Delivery}
      {remaining : List String}
      (announces : delivery.announces = some (aborter, message))
      (returns : delivery.header.severity.aborts = false) :
      Calling aborter message (.dispatching delivery remaining)

/-- How far a call has come that owes something, and what has been received of it. -/
inductive Headway
    (reliable : Prop)
    (installed : Context → Prop)
    (context : Context)
    (owed : Option Delivery) :
    Activity → List Reception → Prop where
  | completed
      {receptions : List Reception}
      (received : Received installed reliable owed receptions) :
      Headway reliable installed context owed .idle receptions
  | initializes
      {activity : Activity}
      (initializing : activity.initializes = true) :
      Headway reliable installed context owed activity []
  | waits
      {delivery : Delivery}
      (own : delivery.announces = none)
      (owes : owed = delivery.aborting?) :
      Headway reliable installed context owed (.waiting delivery) []
  | hands
      {delivery : Delivery}
      {handed remaining : List String}
      (own : delivery.announces = none)
      (owes : owed = delivery.aborting?)
      (found : installed context)
      (lines : Text.splitLines delivery.message = handed ++ remaining) :
      Headway reliable installed context owed (.dispatching delivery remaining)
        (if delivery.header.severity.aborts then
          handed.map fun text =>
            .line context.logger (Emission.lineOf context delivery.header text)
        else
          [])
  | calls
      {activity : Activity}
      {delivery : Delivery}
      {taken : Context}
      (owes : owed = some delivery)
      (found : installed taken)
      (calling : activity.Calling taken.aborter delivery.message) :
      Headway reliable installed context owed activity
        (delivery.emissionIn taken).lines

/-! ## What is owed and received does not depend on what comes later -/

section Later

variable
    {host : Host}
    {origin : Context}
    {history later : List Admission}

theorem Owes.append
    {index position : Nat}
    {call : Call}
    {owed : Option Delivery}
    (owes : Owes host history index position call owed)
    (later : List Admission) :
    Owes host (history ++ later) index position call owed := by
  cases owes with
  | emission delivers =>
      exact .emission delivers
  | report history_eq =>
      apply Owes.report
      rw [history_eq, List.append_assoc, List.cons_append]
  | nothing silent no_request =>
      exact .nothing silent no_request

/-- A message of a lower severity owes nothing to an aborter. -/
theorem Owes.of_returns
    {index position : Nat}
    {call : Call}
    {delivery : Delivery}
    (delivers : call.delivery? = some delivery)
    (returns : delivery.header.severity.aborts = false) :
    Owes host history index position call none := by
  have owes := @Owes.emission host history index position call delivery delivers
  rw [Delivery.aborting?, if_neg (ne_true_of_eq_false returns)] at owes
  exact owes

theorem Installed.append
    {context : Context}
    (installed : Installed origin history context)
    (later : List Admission) :
    Installed origin (history ++ later) context := by
  rcases installed with original | ⟨admission, member, pair⟩
  · exact Or.inl original
  · exact Or.inr ⟨admission, List.mem_append_left later member, pair⟩

theorem installed_origin (origin : Context) (history : List Admission) :
    Installed origin history origin :=
  Or.inl ⟨rfl, rfl⟩

/-- A context has the pair of the last initialization, if there was any. -/
theorem installed_of_follows
    {kept : Prop}
    {context : Context}
    (follows : (contextAfterAll origin history).Follows kept context) :
    Installed origin history context := by
  rw [Installed, follows.logger_eq, follows.aborter_eq]
  induction history using List.reverseRecOn with
  | nil =>
      exact Or.inl ⟨rfl, rfl⟩
  | append_singleton earlier last _ =>
      rw [contextAfterAll_concat, Initialization.contextAfter_logger,
        Initialization.contextAfter_aborter]
      exact Or.inr ⟨last, by simp, rfl, rfl⟩

end Later

section Stages

variable
    {reliable whole : Prop}
    {installed installedLater : Context → Prop}
    {context contextLater : Context}
    {owed : Option Delivery}
    {activity : Activity}
    {receptions : List Reception}
    {delivery : Delivery}
    {aborter : Aborter}
    {message : String}

theorem Received.mono
    (received : Received installed whole owed receptions)
    (later : ∀ context, installed context → installedLater context)
    (less : reliable → whole) :
    Received installedLater reliable owed receptions := by
  cases received with
  | nothing =>
      exact .nothing
  | emission found beginning complete =>
      exact .emission (later _ found) beginning fun reliable =>
        complete (less reliable)

/-- The beginning of everything that is owed is nothing at all. -/
theorem received_nil
    (found : installed context)
    (owed : Option Delivery) :
    Received installed False owed [] := by
  cases owed with
  | none =>
      exact .nothing
  | some delivery =>
      exact .emission found List.nil_prefix False.elim

/-- Where nothing is owed, nothing was received. -/
theorem Received.eq_nil (received : Received installed whole none receptions) :
    receptions = [] := by
  cases received
  rfl

theorem Headway.mono
    (headway : Headway reliable installed context owed activity receptions)
    (later : ∀ context, installed context → installedLater context)
    (same :
      ∀ delivery remaining,
        activity = .dispatching delivery remaining → contextLater = context) :
    Headway reliable installedLater contextLater owed activity receptions := by
  cases headway with
  | completed received =>
      exact .completed (received.mono later id)
  | initializes initializing =>
      exact .initializes initializing
  | waits own owes =>
      exact .waits own owes
  | hands own owes found lines =>
      rw [same _ _ rfl]
      exact .hands own owes (later _ found) lines
  | calls owes found calling =>
      exact .calls owes (later _ found) calling

/-- There is a beginning of what is owed at every moment, and all of it in the end. -/
theorem Headway.received
    (headway : Headway reliable installed context owed activity receptions)
    {original : Context}
    (found : installed original) :
    Received installed (reliable ∧ activity = .idle) owed receptions := by
  cases headway with
  | completed received =>
      exact received.mono (fun _ => id) And.left
  | initializes initializing =>
      refine (received_nil found owed).mono (fun _ => id) ?_
      rintro ⟨_, rfl⟩
      cases initializing
  | waits own owes =>
      exact (received_nil found owed).mono (fun _ => id) fun ⟨_, idle⟩ => nomatch idle
  | @hands delivery handed remaining own owes taken lines =>
      subst owes
      unfold Delivery.aborting?
      split
      · refine .emission taken ?_ fun ⟨_, idle⟩ => nomatch idle
        simp only [Emission.withAbort, Emission.lines, Delivery.emissionIn, lines,
          List.map_append, List.append_assoc]
        exact List.prefix_append _ _
      · exact .nothing
  | calls owes taken calling =>
      subst owes
      refine .emission taken (List.prefix_append _ _) ?_
      rintro ⟨_, rfl⟩
      cases calling

/-! ## How a call gets on with what it owes -/

/-- An initialization has not received anything while it is under the lock. -/
theorem Headway.eq_nil
    (headway : Headway reliable installed context owed activity receptions)
    (initializing : activity.initializes = true) :
    receptions = [] := by
  cases headway with
  | initializes initializing =>
      rfl
  | calls owes taken calling =>
      cases calling <;> cases initializing
  | _ =>
      cases initializing

theorem Headway.initializing
    {next : Activity}
    (headway : Headway reliable installed context owed activity receptions)
    (initializing : activity.initializes = true)
    (still : next.initializes = true) :
    Headway reliable installed contextLater owed next receptions := by
  rw [headway.eq_nil initializing]
  exact .initializes still

theorem Headway.acquires
    (headway : Headway reliable installed context owed (.waiting delivery) receptions)
    (found : installed context) :
    Headway reliable installed context owed
      (.dispatching delivery (Text.splitLines delivery.message)) receptions := by
  cases headway with
  | initializes initializing =>
      cases initializing
  | waits own owes =>
      have none_handed :=
        @Headway.hands reliable installed context owed delivery []
          (Text.splitLines delivery.message) own owes found rfl
      simpa using none_handed
  | calls owes taken calling =>
      cases calling with
      | waiting announces returns =>
          exact .calls owes taken (.dispatching announces returns)

theorem Headway.handed
    {text : String}
    {remaining : List String}
    {written : List UInt8}
    (headway :
      Headway reliable installed context owed
        (.dispatching delivery (text :: remaining)) receptions) :
    Headway reliable installed context owed (.dispatching delivery remaining)
      (receptions ++
        ([.event
            (.line context.logger
              (Emission.lineOf context delivery.header text) written)].filterMap
          Happening.aborting?)) := by
  cases headway with
  | initializes initializing =>
      cases initializing
  | @hands _ handed _ own owes found lines =>
      have one_more :=
        @Headway.hands reliable installed context owed delivery (handed ++ [text])
          remaining own owes found (by simpa using lines)
      cases aborting : delivery.header.severity.aborts with
      | true =>
          simpa [aborting, Happening.aborting?, Emission.lineOf] using one_more
      | false =>
          simpa [aborting, Happening.aborting?, Emission.lineOf] using one_more
  | calls owes taken calling =>
      cases calling with
      | dispatching announces returns =>
          have still :=
            @Headway.calls reliable installed context owed
              (.dispatching delivery remaining) _ _ owes taken
              (.dispatching announces returns)
          simpa [returns, Happening.aborting?, Emission.lineOf] using still

/-- A logger that panics ends the call, and whoever is not reliable may do so. -/
theorem Headway.faulted
    {text : String}
    {remaining : List String}
    (headway :
      Headway reliable installed context owed
        (.dispatching delivery (text :: remaining)) receptions)
    (unreliable : ¬ reliable) :
    Headway reliable installed context owed .idle receptions := by
  cases headway with
  | initializes initializing =>
      cases initializing
  | @hands _ handed _ own owes found lines =>
      have received :=
        (@Headway.hands reliable installed context owed delivery handed
          (text :: remaining) own owes found lines).received found
      exact .completed (received.mono (fun _ => id) fun whole => absurd whole unreliable)
  | calls owes taken calling =>
      subst owes
      exact .completed
        (.emission taken (List.prefix_append _ _) fun whole =>
          absurd whole unreliable)

theorem Headway.releases
    (headway :
      Headway reliable installed context owed (.dispatching delivery []) receptions) :
    Headway reliable installed context owed
      (Machine.afterDelivery context delivery) receptions := by
  cases headway with
  | initializes initializing =>
      cases initializing
  | @hands _ handed _ own owes found lines =>
      rw [List.append_nil] at lines
      subst owes
      unfold Machine.afterDelivery
      cases aborting : delivery.header.severity.aborts with
      | true =>
          have calling := @Activity.Calling.aborting context.aborter delivery.message
          have owes : delivery.aborting? = some delivery := if_pos aborting
          have aborts :=
            @Headway.calls reliable installed context _ _ _ _ owes found calling
          simpa [Emission.lines, Delivery.emissionIn, lines] using aborts
      | false =>
          have owes : delivery.aborting? = none :=
            if_neg (ne_true_of_eq_false aborting)
          rw [owes, own]
          exact .completed .nothing
  | calls owes taken calling =>
      cases calling with
      | dispatching announces returns =>
          simp only [Machine.afterDelivery, returns, announces]
          exact .calls owes taken .announced

theorem Headway.announces
    (headway :
      Headway reliable installed context owed (.aborting aborter message) receptions)
    (host : Host) :
    Headway reliable installed context owed
      (Machine.announcing host aborter message) receptions := by
  cases headway with
  | initializes initializing =>
      cases initializing
  | calls owes taken calling =>
      cases calling with
      | aborting =>
          apply Headway.calls owes taken
          unfold Machine.announcing
          split
          · next announcement equality =>
              dsimp only
              split
              · exact .waiting (by rw [equality]) announcement.quiet
              · exact .announced
          · exact .announced

theorem Headway.aborted
    (headway :
      Headway reliable installed context owed (.announced aborter message) receptions) :
    Received installed whole owed (receptions ++ [.abort aborter message]) := by
  cases headway with
  | initializes initializing =>
      cases initializing
  | calls owes taken calling =>
      cases calling with
      | announced =>
          subst owes
          exact .emission taken (List.prefix_refl _) fun _ => rfl

end Stages

end Concurrency

end GatedLog
