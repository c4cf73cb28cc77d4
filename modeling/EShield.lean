import EShield.Common.Proofs.PureProofs
import EShield.Console.Proofs.L7ViewProofs
import EShield.Ebpf.Proofs.ConnTrackProofs
import EShield.Ebpf.Proofs.InternetChecksumProofs
import EShield.Ebpf.Proofs.IsolationProofs
import EShield.Ebpf.Proofs.ModuleSetProofs
import EShield.Ebpf.Proofs.PipelineProofs
import EShield.Ebpf.Proofs.PortWindowProofs
import EShield.Ebpf.Proofs.RateBoundProofs
import EShield.Ebpf.Proofs.ResetReplyProofs
import EShield.Ebpf.Proofs.SampleRunProofs
import EShield.Ebpf.Proofs.SamplingProofs
import EShield.Ebpf.Proofs.SoftModeProofs
import EShield.Ebpf.Proofs.StatsProofs
import EShield.Ebpf.Proofs.ThresholdProofs
import EShield.Ebpf.Proofs.VerifiedClientProofs
import EShield.Fleet.Proofs.ExchangeProofs
import EShield.Fleet.Proofs.ReplicaProofs
import EShield.Hub.Proofs.IndexProofs
import EShield.Hub.Proofs.LimiterBucketProofs
import EShield.Hub.Proofs.MergeProofs
import EShield.Hub.Proofs.PullProofs
import EShield.Node.Proofs.AdaptiveProofs
import EShield.Node.Proofs.AuditTailProofs
import EShield.Node.Proofs.AuditTamperProofs
import EShield.Node.Proofs.AuthProofs
import EShield.Node.Proofs.CanonicalProofs
import EShield.Node.Proofs.ConfigMirrorProofs
import EShield.Node.Proofs.ControlLocksProofs
import EShield.Node.Proofs.CookieRotationProofs
import EShield.Node.Proofs.CpuUsageProofs
import EShield.Node.Proofs.HubEchoProofs
import EShield.Node.Proofs.LoginLimiterProofs
import EShield.Node.Proofs.MapWriterProofs
import EShield.Node.Proofs.PortAclProofs
import EShield.Node.Proofs.PrefixProofs
import EShield.Node.Proofs.ProtectionProjectsProofs
import EShield.Node.Proofs.PruneProofs
import EShield.Node.Proofs.RestartProofs
import EShield.Node.Proofs.RuntimePatchProofs
import EShield.Node.Proofs.StaticBlockProofs
import EShield.Node.Proofs.StatsSyncProofs
import EShield.Node.Proofs.SyncRunProofs
import EShield.Node.Proofs.TrustProofs
import EShield.Node.Proofs.WhitelistStoreProofs
import EShield.Common.FeedText
import EShield.Ebpf.Proofs.FrameProofs
import EShield.Hub.Api
import EShield.Hub.Proofs.ApiFrameProofs
import EShield.Hub.Proofs.ApiProofs
import EShield.Hub.Proofs.CountProofs
import EShield.Hub.Proofs.PresenceProofs
import EShield.Hub.Proofs.PushProofs
import EShield.Hub.Proofs.StoreBytesProofs
import EShield.Hub.Proofs.TokenProofs
import EShield.Lib.BoundedLog
import EShield.Lib.Cooldown
import EShield.Lib.IpChars
import EShield.Lib.RoundRobin
import EShield.Lib.StampGate
import EShield.Lib.Tally
import EShield.Lib.TopRows
import EShield.Node.Alert
import EShield.Node.EventConsumer
import EShield.Node.Failover
import EShield.Node.HubRules
import EShield.Node.PacketLog
import EShield.Node.Proofs.AlertProofs
import EShield.Node.Proofs.EventConsumerProofs
import EShield.Node.Proofs.FailoverProofs
import EShield.Node.Proofs.HubRulesProofs
import EShield.Node.Proofs.IpTextProofs
import EShield.Node.Proofs.PacketLogProofs
import EShield.Node.Proofs.ThreatIntelProofs
import EShield.Node.Proofs.TimeSeriesProofs
import EShield.Node.Proofs.ViewsProofs
