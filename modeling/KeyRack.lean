import KeyRack.Properties.AuditRuns
import KeyRack.Properties.AuditSignatures
import KeyRack.Properties.BearerTokens
import KeyRack.Properties.CedarRequests
import KeyRack.Properties.CreationAttempts
import KeyRack.Properties.CustodyCodec
import KeyRack.Properties.DeletionApproval
import KeyRack.Properties.DeliveryRecords
import KeyRack.Properties.DestructionClaims
import KeyRack.Properties.DisableCascade
import KeyRack.Properties.EcdsaSignatures
import KeyRack.Properties.EnvelopeRetention
import KeyRack.Properties.FenceReceipt
import KeyRack.Properties.ForwardedIdentity
import KeyRack.Properties.GateRuns
import KeyRack.Properties.HeaderBinding
import KeyRack.Properties.InputFrames
import KeyRack.Properties.JournalRetries
import KeyRack.Properties.KeyListing
import KeyRack.Properties.KmipBlobs
import KeyRack.Properties.LeafOnly
import KeyRack.Properties.LeaseRuns
import KeyRack.Properties.MigrationRuns
import KeyRack.Properties.ProviderSelection
import KeyRack.Properties.RotationJobs
import KeyRack.Properties.SingleFlight
import KeyRack.Properties.StaticCycles
import KeyRack.Properties.TtlvCodec
