import BitsService.Lib.Effect
import BitsService.Lib.Retry
import BitsService.Lib.Codec
import BitsService.Lib.LexicalPath
import BitsService.Lib.FileTree
import BitsService.Lib.Interleaving
import BitsService.Lib.WriteLog
import BitsService.Lib.KeyedMap
import BitsService.Lib.OperationRuns
import BitsService.Lib.WeakestPrecondition
import BitsService.Lib.Sha1
import BitsService.Lib.ContentAddressed
import BitsService.Lib.Paging
import BitsService.Lib.Base64
import BitsService.Lib.Reader
import BitsService.Lib.TreeMap
import BitsService.Lib.Coupling
import BitsService.Lib.Interference
import BitsService.Foundations.Bytes
import BitsService.Foundations.Archive
import BitsService.Foundations.Utf8
import BitsService.Foundations.Fmt
import BitsService.Foundations.World
import BitsService.Foundations.Path
import BitsService.Foundations.Url
import BitsService.Foundations.ZipWriter
import BitsService.Foundations.NetUrl
import BitsService.Foundations.HttpEndpoint
import BitsService.Foundations.PlainFormats
import BitsService.Foundations.JsonText
import BitsService.Foundations.QueryText
import BitsService.Blobstores.Interface
import BitsService.Blobstores.Decorators
import BitsService.Blobstores.Local
import BitsService.Blobstores.Scripted
import BitsService.Blobstores.Confinement
import BitsService.Blobstores.LocalWrites
import BitsService.Blobstores.ObjectStores
import BitsService.Blobstores.PagedDeletion
import BitsService.Blobstores.DeletionReports
import BitsService.Blobstores.ListingLimit
import BitsService.Blobstores.AzureUpload
import BitsService.Blobstores.GcpUpload
import BitsService.Blobstores.FailedUploads
import BitsService.Blobstores.WebDavClient
import BitsService.Blobstores.WebDavRuns
import BitsService.Blobstores.WebDav
import BitsService.Blobstores.LocalCopy
import BitsService.Blobstores.AzureErrors
import BitsService.Blobstores.WebDavReports
import BitsService.Blobstores.WebDavPaths
import BitsService.Blobstores.Doubles
import BitsService.Blobstores.BlobMaps
import BitsService.Stash.Fingerprint
import BitsService.Stash.Bundle
import BitsService.Stash.BundleInvariant
import BitsService.Stash.BundleExactness
import BitsService.Stash.BundleSuccess
import BitsService.Stash.AppStashHandler
import BitsService.Stash.Matching
import BitsService.Stash.Addressing
import BitsService.Stash.BundleTemps
import BitsService.Stash.ServedBundles
import BitsService.Stash.Receipts
import BitsService.Stash.MatchedBundles
import BitsService.Stash.DiskFull
import BitsService.Stash.RegularBundles
import BitsService.Stash.InRange
import BitsService.Stash.WebDavBundles
import BitsService.Stash.Retries
import BitsService.Stash.AlikeStashes
import BitsService.Stash.SharedStash
import BitsService.Stash.ConcurrentBundles
import BitsService.Stash.ShelvedStash
import BitsService.Resources.Handler
import BitsService.Resources.DeleteFrame
import BitsService.Resources.Receiving
import BitsService.Resources.UploadProtocol
import BitsService.Resources.CCUpdater
import BitsService.Resources.Agreement
import BitsService.Resources.Concurrency
import BitsService.Resources.CacheDeletion
import BitsService.Resources.ModificationAnswers
import BitsService.Resources.UploadAnswers
import BitsService.Resources.Modifications
import BitsService.Resources.TempFiles
import BitsService.Resources.Downloads
import BitsService.Resources.AzureCopies
import BitsService.Resources.CCRequests
import BitsService.Resources.WebDavLocations
import BitsService.Resources.ShelvedResources
import BitsService.Server.Wiring
import BitsService.Server.SignedKeys
import BitsService.Server.Http
import BitsService.Server.SignedUrls
import BitsService.Server.Routes
import BitsService.Server.UrlAuthority
import BitsService.Server.SignatureSoundness
import BitsService.Server.UrlRoundTrip
import BitsService.Server.SharedBucket
import BitsService.Server.Config
import BitsService.Server.ConfigSoundness
import BitsService.Server.StoreCalls
import BitsService.Server.OutOfSpace
import BitsService.Server.BasicAuth
import BitsService.Server.LimitedBody
import BitsService.Server.ErrorBodies
import BitsService.Server.Dispatch
import BitsService.Server.Main
import BitsService.Server.Access
import BitsService.Server.AlikeServers
import BitsService.Server.Grants
import BitsService.Server.DiskServer
import BitsService.Server.Endings
import BitsService.Server.ShelvedServer
import BitsService.Server.LocalServer
import BitsService.Server.AlikeShelves
import BitsService.Server.Holdings
import BitsService.Server.Frames
import BitsService.Server.Histories
import BitsService.Server.Transfers
