import GatedLog.Line.Terminal
import GatedLog.Session.Run
import GatedLog.Proofs.ErrorSuffix
import GatedLog.Proofs.FormattingLaw
import GatedLog.Proofs.Line.Kernel
import GatedLog.Proofs.Line.Terminal
import GatedLog.Proofs.ProgramName
import GatedLog.Proofs.Concurrency.FirstInitialization
import GatedLog.Proofs.Concurrency.Interleaving
import GatedLog.Proofs.Concurrency.PairLaw
import GatedLog.Proofs.Concurrency.Provenance
import GatedLog.Proofs.Session.AbortLaw
import GatedLog.Proofs.Session.BridgeLaw
import GatedLog.Proofs.Session.Closing
import GatedLog.Proofs.Session.ConfigurationLaw
import GatedLog.Proofs.Session.DeviceLaw
import GatedLog.Proofs.Session.EndingLaw
import GatedLog.Proofs.Session.EnvironmentLaw
import GatedLog.Proofs.Session.FaultLaw
import GatedLog.Proofs.Session.GuardLaw
import GatedLog.Proofs.Session.InitializationLaw
import GatedLog.Proofs.Session.RecordLife
import GatedLog.Proofs.Session.ScopeLaw
import GatedLog.Proofs.Session.ThresholdLaw
import GatedLog.Proofs.Tags.Grammar
