import RespStore.Main
import RespStore.Proofs.Arena.Ledger
import RespStore.Proofs.Command.Interpretation
import RespStore.Proofs.Command.Sizes
import RespStore.Proofs.Session.Accounting
import RespStore.Proofs.Session.Chunks
import RespStore.Proofs.Session.Reading
import RespStore.Proofs.Session.Reporting
import RespStore.Proofs.Session.Serving
import RespStore.Proofs.Session.Shutdown
import RespStore.Proofs.Settings
import RespStore.Proofs.Store.Partition
import RespStore.Proofs.Table.Buffers
import RespStore.Proofs.Table.Ceiling
import RespStore.Proofs.Table.Checked
import RespStore.Proofs.Table.Growth
import RespStore.Proofs.Table.HighWater
import RespStore.Proofs.Wire.Checked
import RespStore.Proofs.Wire.Counting
import RespStore.Proofs.Wire.Moving
import RespStore.Proofs.Wire.Numerals
import RespStore.Proofs.Wire.Spending
import RespStore.Proofs.Wire.Wrapping
import RespStore.Proofs.Wire.Writing
import RespStore.Service
import RespStore.Settings
import RespStore.Table.Describe
