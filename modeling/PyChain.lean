import PyChain.Transaction.ClosedForm
import PyChain.Transaction.ArrivalOrder
import PyChain.Transaction.Removal
import PyChain.Blockchain.Authorisation
import PyChain.Blockchain.Revalidation
import PyChain.Blockchain.Preimages
import PyChain.Blockchain.Recipients
import PyChain.Mining.Agreement
import PyChain.Network.Gossip
import PyChain.Network.InboundBudget
import PyChain.Network.SignedItems
import PyChain.Network.RetryCycles
import PyChain.Network.SnapshotCaps
import PyChain.Network.BlockDownload
import PyChain.Network.CommonLedger
import PyChain.Network.CatchUp
import PyChain.Storage.Writers
import PyChain.Api.MiningJobs
import PyChain.Api.AddressDetail
import PyChain.Wallet.Forecast
import PyChain.Api.RateLimiter
import PyChain.Api.WebSocketBroadcast
import PyChain.Api.WebSocketSlots
import PyChain.Api.TransactionLookup
import PyChain.Api.AddressSnapshot
import PyChain.Wallet.Receipts
