import OpfsWebauthn.Foundation.OrderedMap
import OpfsWebauthn.Foundation.Automaton
import OpfsWebauthn.Foundation.Outcome
import OpfsWebauthn.Foundation.BitGroups
import OpfsWebauthn.Storage.Rpc
import OpfsWebauthn.Storage.LeaderBridge
import OpfsWebauthn.Storage.BridgeIsolation
import OpfsWebauthn.Storage.RowId
import OpfsWebauthn.Storage.NoteRepository
import OpfsWebauthn.Storage.Dispatcher
import OpfsWebauthn.Storage.OneDatabase
import OpfsWebauthn.Crypto.Primitives
import OpfsWebauthn.Crypto.CryptoVault
import OpfsWebauthn.Crypto.Tabulated
import OpfsWebauthn.Auth.Ceremony
import OpfsWebauthn.Auth.AuthScreen
import OpfsWebauthn.Auth.CredentialLifetime
import OpfsWebauthn.Share.Wire
import OpfsWebauthn.Share.Seal
import OpfsWebauthn.Share.Session
import OpfsWebauthn.Share.RelayConfidentiality
import OpfsWebauthn.Storage.RowIdCodec
import OpfsWebauthn.Storage.Repo
import OpfsWebauthn.Storage.ListPages
import OpfsWebauthn.Auth.VaultRows
import OpfsWebauthn.Auth.DatabaseReadable
import OpfsWebauthn.Storage.LeaderTransport
import OpfsWebauthn.Foundation.Packets
import OpfsWebauthn.Storage.LeaderWorld
import OpfsWebauthn.Storage.TransportSpec
import OpfsWebauthn.Storage.TransportSound
import OpfsWebauthn.Storage.SingleWriter
import OpfsWebauthn.Storage.LeaderOrder
import OpfsWebauthn.Storage.StableLeader
import OpfsWebauthn.Storage.Traffic
import OpfsWebauthn.Storage.AtMostOnce
import OpfsWebauthn.Storage.NoneLost
import OpfsWebauthn.Foundation.Threads
import OpfsWebauthn.Foundation.Routing
import OpfsWebauthn.Backend.Store
import OpfsWebauthn.Backend.Handlers
import OpfsWebauthn.Backend.Relay
import OpfsWebauthn.Backend.PickupSafety
import OpfsWebauthn.Backend.OneShot
import OpfsWebauthn.Backend.MintCap
import OpfsWebauthn.Backend.Capacity
import OpfsWebauthn.Auth.IdleLock
import OpfsWebauthn.Foundation.KeysetPages
import OpfsWebauthn.Storage.Cursors
import OpfsWebauthn.Storage.Paging
import OpfsWebauthn.State.NotesStore
import OpfsWebauthn.State.Notebook
import OpfsWebauthn.Storage.NoteMap
import OpfsWebauthn.Storage.FieldBinding
import OpfsWebauthn.Foundation.JsonText
import OpfsWebauthn.Share.NoteCodec
import OpfsWebauthn.Share.Exchange
import OpfsWebauthn.Share.ExchangeLedger
import OpfsWebauthn.Share.Promises
import OpfsWebauthn.Share.EndToEnd
import OpfsWebauthn.Foundation.Numbers
import OpfsWebauthn.Storage.Migrations
import OpfsWebauthn.Storage.SchemaVersion
import OpfsWebauthn.Share.MintCodec
import OpfsWebauthn.Share.CodeShape
import OpfsWebauthn.Storage.AcceptedIds
import OpfsWebauthn.Auth.IdleAgreement
import OpfsWebauthn.Foundation.SlidingWindow
import OpfsWebauthn.Storage.Connection
import OpfsWebauthn.Storage.SendPromises
import OpfsWebauthn.Storage.TransportRun
import OpfsWebauthn.Storage.RestartBudget
import OpfsWebauthn.Storage.ChannelObjects
import OpfsWebauthn.Storage.FailedRequests
import OpfsWebauthn.Foundation.BitStrings
import OpfsWebauthn.Share.PickupCode
import OpfsWebauthn.Crypto.VaultUnlock
import OpfsWebauthn.Backend.Cors
import OpfsWebauthn.Backend.Http
import OpfsWebauthn.Share.ClientView
import OpfsWebauthn.Foundation.Recency
import OpfsWebauthn.Foundation.Spacing
import OpfsWebauthn.Notes.Markdown
import OpfsWebauthn.Notes.StripCache
import OpfsWebauthn.Deploy.PrecacheManifest
import OpfsWebauthn.Auth.CredentialStore
import OpfsWebauthn.Share.HandleLifetime
import OpfsWebauthn.Deploy.ServiceWorker
import OpfsWebauthn.Deploy.WorkerCaches
import OpfsWebauthn.Deploy.OfflineShell
import OpfsWebauthn.Notes.NotesRepo
import OpfsWebauthn.Notes.RepoLifetime
