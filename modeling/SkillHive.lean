import SkillHive.Cache.ProtectedBlobs
import SkillHive.Deployment.Crashes
import SkillHive.Deployment.FailingSteps
import SkillHive.Deployment.SharedTargets
import SkillHive.Deployment.StrayDirectories
import SkillHive.Deployment.TornJournals
import SkillHive.Deployment.UninstallRuns
import SkillHive.Foundation.Decimals
import SkillHive.Foundation.History
import SkillHive.Foundation.NameChains
import SkillHive.Foundation.Rounds
import SkillHive.Foundation.RowNumbers
import SkillHive.Foundation.Upgrades
import SkillHive.LocalStore.AccountIsolation
import SkillHive.LocalStore.AccountScopes
import SkillHive.LocalStore.ConflictOffered
import SkillHive.LocalStore.DeletedRows
import SkillHive.LocalStore.Dispatches
import SkillHive.LocalStore.Draining
import SkillHive.LocalStore.EventRows
import SkillHive.LocalStore.Events
import SkillHive.LocalStore.ExpirySweep
import SkillHive.LocalStore.Hydration
import SkillHive.LocalStore.InterruptedUpgrades
import SkillHive.LocalStore.KeepLocal
import SkillHive.LocalStore.KeepRemote
import SkillHive.LocalStore.LapsedLeases
import SkillHive.LocalStore.Migrations
import SkillHive.LocalStore.OutboxSafety
import SkillHive.LocalStore.QuietRuns
import SkillHive.LocalStore.RecordedHeads
import SkillHive.LocalStore.RefusedSkills
import SkillHive.LocalStore.RejectedWork
import SkillHive.LocalStore.StalePages
import SkillHive.LocalStore.StoredLeases
import SkillHive.Server.BlobGc
import SkillHive.Server.BrowserEdits
import SkillHive.Server.CommitOrder
import SkillHive.Server.ConcurrentMoves
import SkillHive.Server.CreateReceipts
import SkillHive.Server.GcProgress
import SkillHive.Server.GrantConstraints
import SkillHive.Server.GroupAnswers
import SkillHive.Server.GroupOwners
import SkillHive.Server.GroupRoles
import SkillHive.Server.GroupSkills
import SkillHive.Server.GroupStatuses
import SkillHive.Server.HeadRevision
import SkillHive.Server.LogTrim
import SkillHive.Server.PackageRetention
import SkillHive.Server.PublishedLocks
import SkillHive.Server.RefreshTokens
import SkillHive.Server.Revisions
import SkillHive.Server.SequenceNumbers
import SkillHive.Server.ServedPackages
import SkillHive.Server.StorageBackends
import SkillHive.Server.StorageSettings
import SkillHive.Server.SyncCursor
import SkillHive.Server.VersionLock
import SkillHive.Server.VersionTags
import SkillHive.Sync.CapturedPackages
import SkillHive.Sync.EncodableEdits
import SkillHive.Sync.ExpiredCursor
import SkillHive.Sync.LeaseRenewal
import SkillHive.Sync.LostReplies
import SkillHive.Sync.ManifestCodecs
import SkillHive.Sync.PackageClosures
import SkillHive.Sync.PrivateMirror
import SkillHive.Sync.PushedMetadata
import SkillHive.Sync.ServerAddress
import SkillHive.Workspace.ArchiveRoundTrip
import SkillHive.Workspace.ImportedWorkspaces
import SkillHive.Workspace.Replacements
