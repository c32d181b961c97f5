import CounselReady.Framework.Program
import CounselReady.Framework.Relational
import CounselReady.Framework.Transaction
import CounselReady.Runtime
import CounselReady.Auth.Mfa
import CounselReady.Storage
import CounselReady.Auth.Service
import CounselReady.Jobs.Queue
import CounselReady.Ingest.Service
import CounselReady.Api.Auth
import CounselReady.Api.Mfa
import CounselReady.Api.Passkeys
import CounselReady.Api.Cases
import CounselReady.Api.Events
import CounselReady.App
import CounselReady.Footprint
import CounselReady.Rules
import CounselReady.Specs.SecondFactor
import CounselReady.Specs.SignIn
import CounselReady.Specs.Deletion
import CounselReady.Specs.Upload
import CounselReady.Guarantees.RefreshReplay
import CounselReady.Sample
import CounselReady.Guarantees.LoginRateLimit
import CounselReady.Guarantees.DocumentBytes
import CounselReady.Guarantees.ErasedBytes
import CounselReady.Guarantees.ErasedIdentity
import CounselReady.Guarantees.SecondFactor
import CounselReady.Framework.Cascade
import CounselReady.Specs.CaseFile
import CounselReady.Guarantees.DeletionCascade
import CounselReady.Guarantees.AccessAudit
import CounselReady.Guarantees.Timeline
import CounselReady.Framework.Run
import CounselReady.Framework.SideBySide
import CounselReady.Specs.Ingest
import CounselReady.Specs.DocumentChange
import CounselReady.Guarantees.PagesRead
import CounselReady.Guarantees.OcrJobs
import CounselReady.Guarantees.JobQueue
import CounselReady.Guarantees.PoisonJobs
import CounselReady.Specs.Minting
import CounselReady.Guarantees.LiveSession
import CounselReady.Framework.ReadCommitted
import CounselReady.Specs.Traffic
import CounselReady.Guarantees.OcrFill
import CounselReady.Guarantees.OcrFailures
import CounselReady.Framework.Utf16
import CounselReady.Frontend.Reader
import CounselReady.Guarantees.Highlights
import CounselReady.Guarantees.Citations
import CounselReady.Guarantees.SignInDisclosure
import CounselReady.Guarantees.Challenges
import CounselReady.Specs.Enrolment
import CounselReady.Guarantees.RecoveryCodes
import CounselReady.Guarantees.ActiveSecret
import CounselReady.Framework.Calendar
import CounselReady.Frontend.Dates
import CounselReady.Guarantees.RecordedDates
import CounselReady.Guarantees.UnreadablePages
import CounselReady.Specs.Admission
import CounselReady.Specs.CodeCheck
import CounselReady.Guarantees.ExactCodes
import CounselReady.Guarantees.MalformedCodes
import CounselReady.Guarantees.UploadCap
import CounselReady.Guarantees.Chronology
import CounselReady.Guarantees.ColumnWidths
import CounselReady.Guarantees.Duplicates
import CounselReady.Guarantees.SignCounts
import CounselReady.Framework.SingleUse
import CounselReady.Guarantees.ChallengesOnce
import CounselReady.Framework.Text
import CounselReady.Guarantees.RetypedCodes
import CounselReady.Guarantees.BoundedReader
import CounselReady.Guarantees.LogoutRetry
import CounselReady.Guarantees.ServedKeys
import CounselReady.Framework.FileSystem
import CounselReady.Storage.Local
import CounselReady.Guarantees.LocalStore
import CounselReady.Guarantees.CodesOnce
import CounselReady.Guarantees.RevokedSessions
import CounselReady.Guarantees.RotatedOnce
import CounselReady.Frontend.Api
import CounselReady.Guarantees.SilentRefresh
import CounselReady.Specs.Abreast
import CounselReady.Guarantees.CaseIsolation
import CounselReady.Framework.Ordering
import CounselReady.Framework.Simulation
import CounselReady.Guarantees.CaseCabinet
import CounselReady.Guarantees.ToldAgain
import CounselReady.Guarantees.OwnHistory
import CounselReady.Guarantees.RegisteredPassword
import CounselReady.Specs.Lobby
import CounselReady.Guarantees.GuestList
import CounselReady.Framework.Json
import CounselReady.Core.Logging
import CounselReady.Guarantees.DeletionReceipt
import CounselReady.Guarantees.RequestLog
