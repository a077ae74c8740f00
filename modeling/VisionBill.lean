import VisionBill.Lib.Rounding
import VisionBill.Lib.DecimalText
import VisionBill.Lib.Sidecar
import VisionBill.Lib.Words
import VisionBill.Lib.Firsts
import VisionBill.Lib.Overlap
import VisionBill.Lib.Transition
import VisionBill.Lib.Table
import VisionBill.Lib.Backlink
import VisionBill.Lib.Program
import VisionBill.Lib.Concurrent
import VisionBill.Lib.Register
import VisionBill.Lib.Informed
import VisionBill.Lib.Dialogue
import VisionBill.Lib.ReadMergeWrite
import VisionBill.Lib.Sql
import VisionBill.Lib.Pages
import VisionBill.Text
import VisionBill.Decimal
import VisionBill.Calendar
import VisionBill.ItemCategory
import VisionBill.Receipt
import VisionBill.Extraction
import VisionBill.Reconciliation
import VisionBill.Benchmark
import VisionBill.BenchmarkAccounting
import VisionBill.BenchmarkLeasing
import VisionBill.Database
import VisionBill.ReceiptDB
import VisionBill.ImageUniqueness
import VisionBill.History
import VisionBill.ReceiptEffects
import VisionBill.Recall
import VisionBill.Provenance
import VisionBill.ImageDB
import VisionBill.CollectionDB
import VisionBill.Queries
import VisionBill.ReadBack
import VisionBill.Files
import VisionBill.World
import VisionBill.Handlers
import VisionBill.Promises
import VisionBill.Links
import VisionBill.Changes
import VisionBill.PutReceipt
import VisionBill.TwoPaths
import VisionBill.Writers
import VisionBill.Completion
import VisionBill.Creation
import VisionBill.Collections
import VisionBill.Configuration
import VisionBill.ItemStatistics
import VisionBill.ItemTotals
import VisionBill.ItemBalance
import VisionBill.Session
import VisionBill.ModelAnswer
import VisionBill.RepairLoop
import VisionBill.BenchmarkScoring
import VisionBill.GroundTruth
import VisionBill.BenchmarkPhotos
import VisionBill.ReceiptLists
import VisionBill.ReceiptPages
import VisionBill.CollectionLists
import VisionBill.BenchmarkSelection
import VisionBill.SavedItems
import VisionBill.Fencing
import VisionBill.ProductSearch
import VisionBill.ImageDeletion
import VisionBill.AnalysisCycle
import VisionBill.ImageStore
import VisionBill.VerifyPhotos
import VisionBill.UploadFiles
import VisionBill.CollectionEdits
import VisionBill.Statistics
import VisionBill.Tenants
import VisionBill.Isolation
import VisionBill.AllReceipts
import VisionBill.Verification
import VisionBill.CollectionPages
import VisionBill.StoredRows
import VisionBill.Bootstrap
import VisionBill.Authentication
import VisionBill.Tags
import VisionBill.Fingerprint
import VisionBill.Money
import VisionBill.ReceiptEditor
import VisionBill.ShownValues
import VisionBill.ReceiptForm
import VisionBill.UneditedFields
import VisionBill.FormErrors
import VisionBill.ShownForms
import VisionBill.Worker
