import GatedLog.Proofs.Device
import GatedLog.Proofs.Session.Trail

/-!
# The law of kernel devices

Through all of a run, whatever records come and go and whichever threads take
part, a device holds the beginning of one stream: that of the lines that its
loggers were given, in the order in which they were given.  How much of it the
device accepts at a time does not show in it, and how much of it the device
accepts at all does not show in anything else.
-/

namespace GatedLog

namespace Devices

theorem lookup_filter_of_ne
    (devices : Devices)
    {handle other : Nat}
    (different : other ≠ handle) :
    (devices.filter fun entry => entry.1 != handle).lookup other =
      devices.lookup other := by
  induction devices with
  | nil =>
      rfl
  | cons entry rest induction =>
      by_cases here : entry.1 = handle
      · have apart : (other == entry.1) = false := by
          rw [here]
          exact beq_false_of_ne different
        rw [List.filter_cons_of_neg (by simp [here]), induction,
          List.lookup_cons, apart]
      · rw [List.filter_cons_of_pos (by simpa using here), List.lookup_cons,
          List.lookup_cons, induction]

/-- What one device holds is nothing to the others. -/
theorem content_store_of_ne
    (devices : Devices)
    {handle other : Nat}
    (different : other ≠ handle)
    (bytes : List UInt8) :
    (devices.store handle bytes).content other = devices.content other := by
  have apart : (other == handle) = false := beq_false_of_ne different
  rw [content, store, List.lookup_cons, apart,
    lookup_filter_of_ne devices different]
  rfl

end Devices

/-- If a logger writes to the handle of a device, it takes it for that device. -/
def Logger.Respects (device : Device) (logger : Logger) : Prop :=
  ∀ (id : String) (other : Device),
    logger = .kernel id (some other) →
      other.handle = device.handle → other = device

namespace Device

/-- All loggers that are installed in a process respect a device. -/
def Respected (device : Device) (host : Host) : Prop :=
  host.Everywhere fun context => context.logger.Respects device

/-- What a process leaves on a device that its loggers respect, on the way to another. -/
def Follows
    (device : Device)
    (host : Host)
    (events : List Event)
    (later : Host) : Prop :=
  device.Respected host →
    device.Respected later ∧
      device.Absorbs
        (host.devices.content device.handle)
        (device.shares events)
        (later.devices.content device.handle)

variable {device : Device}

theorem Respected.withContext
    {host : Host}
    {context : Context}
    (respected : device.Respected host)
    (respects :
      context.logger = host.context.logger ∨ context.logger.Respects device) :
    device.Respected (host.withContext context) := by
  refine respected.of_here rfl ?_
  rcases respects with same | respects
  · exact same.symm ▸ respected.here
  · exact respects

/-- A line that a logger takes is absorbed by its device, and by no other. -/
theorem follows_take (host : Host) (line : Line) :
    device.Follows host
      (Emission.take line host).events (Emission.take line host).state := by
  intro respected
  refine ⟨⟨respected.here, respected.shared⟩, ?_⟩
  cases logger : host.context.logger with
  | kernel id target =>
      cases target with
      | none =>
          simp only [Emission.take, logger]
          exact .nothing _
      | some other =>
          by_cases same : other.handle = device.handle
          · have other_eq := respected.here id other logger same
            subst other_eq
            simp only [Emission.take, logger, Logger.write, shares,
              List.filterMap_cons, share?, if_true, List.filterMap_nil,
              Devices.content_store_self]
            exact .line line (.nothing _)
          · simp only [Emission.take, logger, Logger.write, shares,
              List.filterMap_cons, share?, same, if_false, List.filterMap_nil]
            rw [Devices.content_store_of_ne _ (Ne.symm same)]
            exact .nothing _
  | _ =>
      simp only [Emission.take, logger]
      exact .nothing _

theorem trail (device : Device) :
    Host.Trail (Logger.Respects device) device.Follows where
  refl _ respected := ⟨respected, .nothing _⟩
  trans first second respected := by
    rcases first respected with ⟨between, absorbed⟩
    rcases second between with ⟨later, absorbed_later⟩
    refine ⟨later, ?_⟩
    rw [shares, List.filterMap_append]
    exact absorbed.append absorbed_later
  takes := follows_take
  aborts _ _ _ respected := ⟨respected, .nothing _⟩
  marks _ respected := ⟨⟨respected.here, respected.shared⟩, .nothing _⟩
  configures _ _ respects respected :=
    ⟨respected.withContext respects, .nothing _⟩
  errs _ _ respected := ⟨⟨respected.here, respected.shared⟩, .nothing _⟩
  exports _ _ respected := ⟨⟨respected.here, respected.shared⟩, .nothing _⟩
  shares := by
    intro host later shared events apart inside respected
    have there : shared.logger.Respects device := by
      simpa [Host.sharedContext, apart] using respected.shared
    rcases inside ⟨there, there⟩ with ⟨reached, absorbed⟩
    exact ⟨⟨respected.here, reached.here⟩, absorbed⟩

end Device

namespace Session

/-- What a device that loggers write to has to do with a run. -/
structure DeviceLaw
    (device : Device)
    (session : Session)
    (steps : List Step) : Prop where
  /-- In the end the device holds the stream of all lines, cut at its capacity. -/
  streamed :
    device.Streamed
      (session.host.devices.content device.handle)
      (device.shares (run session steps).events)
      ((run session steps).final.host.devices.content device.handle)
  /-- At every moment before, it holds the stream of the lines up to then. -/
  throughout :
    ∀ earlier later : List Step,
      steps = earlier ++ later →
        device.Streamed
          (session.host.devices.content device.handle)
          (device.shares (runSteps session earlier).events)
          ((runSteps session earlier).final.host.devices.content device.handle)
  /-- At most one line is cut: those before it are whole, those after it add nothing. -/
  cut_once :
    ∀ (before : List Device.Share) (share : Device.Share)
        (after : List Device.Share),
      device.shares (run session steps).events = before ++ share :: after →
        share.written ≠ [] →
          share.written ≠ share.meant →
            (∀ other ∈ before, other.written = other.meant) ∧
              ∀ other ∈ after, other.written = []
  /-- Where threads share the process, the same holds after every schedule. -/
  threads :
    ∀ (calls : List (List Concurrency.Call)) (schedule : List Nat),
      (∀ own ∈ calls, ∀ call ∈ own, ∀ logger ∈ call.loggers,
          logger.Respects device) →
        let reached :=
          (Concurrency.Machine.start session.host calls).run schedule
        device.Streamed
          (session.host.devices.content device.handle)
          (device.shares (Concurrency.Machine.eventsOf reached.log))
          (reached.host.devices.content device.handle)
  /--
  Whatever its device holds and accepts, a logger is given all the lines of a
  message, and the aborter is called after them if it has to be.  The context
  stays as it was.
  -/
  unhindered :
    ∀ (host : Host) (id : String) (target : Option Device)
        (header : Header) (message : String),
      host.context.logger = .kernel id target →
        (GatedLog.emit header message host).Emits host
          (Emission.exit ⟨host.context, header, message⟩)
          (Emission.receptions ⟨host.context, header, message⟩)
  /-- That goes for the messages of records, too. -/
  records_unhindered :
    ∀ (host : Host) (id : String) (target : Option Device) (record : Record),
      host.context.logger = .kernel id target →
        (record.close host).Emits host
          (record.emission host.context).exit
          ((record.emissions host.context).flatMap Emission.receptions)

/-- Every device obeys the law in every run whose loggers agree on what it is. -/
theorem deviceLaw_of_respected
    {device : Device}
    {session : Session}
    {steps : List Step}
    (accepting : device.Accepting)
    (fits : device.Fits (session.host.devices.content device.handle))
    (respected : device.Respected session.host)
    (installed :
      ∀ step ∈ steps, ∀ logger ∈ step.loggers, logger.Respects device) :
    DeviceLaw device session steps := by
  have bridges :
      ∀ host : Host, device.Follows host [] { host with bridged := true } :=
    fun _ before => ⟨⟨before.here, before.shared⟩, .nothing _⟩
  have streamed :=
    ((device.trail.run installed (fun _ => bridges) session
      respected).2).streamed accepting fits
  have reliable :
      ∀ {host : Host} {id : String} {target : Option Device},
        host.context.logger = .kernel id target →
          host.context.logger.Reliable := by
    intro host id target kernel message
    rw [kernel]
    rfl
  refine ⟨streamed, ?_, ?_, ?_, ?_, ?_⟩
  · intro earlier later equality
    have earlier_installed :
        ∀ step ∈ earlier, ∀ logger ∈ step.loggers, logger.Respects device :=
      fun step member =>
        installed step (equality ▸ List.mem_append_left later member)
    exact
      ((device.trail.runSteps earlier_installed (fun _ => bridges) session
        respected).2).streamed accepting fits
  · intro before share after equality begun unfinished
    rw [equality] at streamed
    exact
      ⟨fun _ member => streamed.whole_of_cut begun member,
        (streamed.full before share after rfl unfinished).2⟩
  · intro calls schedule all_installed
    exact
      ((Concurrency.Machine.run_onTrail device.trail all_installed
        schedule).related respected).2.streamed accepting fits
  · intro host id target header message kernel
    exact emit_emits header message (reliable kernel)
  · intro host id target record kernel
    exact record.close_emits (reliable kernel)

/-- A device that takes three bytes at a time, and twenty altogether. -/
def narrow : Device where
  handle := 7
  chunk := some 3
  capacity := some 20

/-- A context that writes to this device, and aborts by leaving for the caller. -/
def narrowed : Context :=
  Context.new (.kernel "k" (some narrow)) (.unwind "main" none) "app"

/-- The second line of an aborting message is cut, and the next message adds nothing. -/
theorem deviceLaw_of_narrow :
    (run (start (Host.around narrowed))
        [.emit ⟨.main, .fatal, "a.rs", 1⟩ "one\ntwo",
          .emit ⟨.main, .info, "a.rs", 2⟩ "three"]).final.host.devices.content 7 =
      ([⟨⟨.main, .fatal, "a.rs", 1⟩, "app", "one"⟩,
          ⟨⟨.main, .fatal, "a.rs", 1⟩, "app", "two"⟩,
          ⟨⟨.main, .info, "a.rs", 2⟩, "app", "three"⟩].flatMap
        Logger.deviceBytes).take 20 := by
  have law :=
    @deviceLaw_of_respected narrow (start (Host.around narrowed))
      [.emit ⟨.main, .fatal, "a.rs", 1⟩ "one\ntwo",
        .emit ⟨.main, .info, "a.rs", 2⟩ "three"]
      (by simp [Device.Accepting, narrow])
      narrow.fits_nil
      (Host.everywhere_around (by rintro _ _ ⟨rfl⟩ _; rfl))
      (by simp [Step.loggers])
  have lines :
      (narrow.shares
            (run (start (Host.around narrowed))
              [.emit ⟨.main, .fatal, "a.rs", 1⟩ "one\ntwo",
                .emit ⟨.main, .info, "a.rs", 2⟩ "three"]).events).map
          Device.Share.line =
        [⟨⟨.main, .fatal, "a.rs", 1⟩, "app", "one"⟩,
          ⟨⟨.main, .fatal, "a.rs", 1⟩, "app", "two"⟩,
          ⟨⟨.main, .info, "a.rs", 2⟩, "app", "three"⟩] := by
    decide +kernel
  have stream := congrArg (List.flatMap Logger.deviceBytes) lines
  have content_eq := law.streamed.content_eq
  rw [List.flatMap_map] at stream
  exact content_eq.trans (congrArg (fun bytes => narrow.clip ([] ++ bytes)) stream)

end Session

end GatedLog
