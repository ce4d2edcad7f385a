import CryptoIntelligence.Calibration.Ties
import CryptoIntelligence.Channel.Receiver
import CryptoIntelligence.Collector.Queue
import CryptoIntelligence.Consolidated.Feasible
import CryptoIntelligence.Dataset.Leakage
import CryptoIntelligence.Decimal.Quotients
import CryptoIntelligence.Deribit.Scientific
import CryptoIntelligence.FastState.Evidence
import CryptoIntelligence.Features.Clock
import CryptoIntelligence.Features.Counts
import CryptoIntelligence.Features.Finality
import CryptoIntelligence.Kraken.Mirror
import CryptoIntelligence.Labels.Knowledge
import CryptoIntelligence.Models.Currency
import CryptoIntelligence.Observability.LogCrash
import CryptoIntelligence.OrderBook.Alignment
import CryptoIntelligence.OrderBook.Disconnection
import CryptoIntelligence.OrderBook.HourlyCount
import CryptoIntelligence.OrderBook.L3Held
import CryptoIntelligence.OrderBook.Receipts
import CryptoIntelligence.OrderBook.Rejections
import CryptoIntelligence.OrderBook.Truncation
import CryptoIntelligence.Orderflow.Ties
import CryptoIntelligence.Registry.Resolution
import CryptoIntelligence.Wal.FileCalls
import CryptoIntelligence.Wal.Sealing
