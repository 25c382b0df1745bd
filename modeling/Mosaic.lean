import Mosaic.Main
import Mosaic.Workspace.FileTree
import Mosaic.Proofs.Blocks
import Mosaic.Proofs.Tilings
import Mosaic.Proofs.Trials
import Mosaic.Proofs.Enumerations
import Mosaic.Proofs.Registers
import Mosaic.Proofs.Searches
import Mosaic.Proofs.Histories
import Mosaic.Proofs.Crops
import Mosaic.Proofs.Duality
import Mosaic.Proofs.Canvases
import Mosaic.Proofs.Contents
import Mosaic.Proofs.Failures
import Mosaic.Proofs.Slots
import Mosaic.Proofs.Independence
import Mosaic.Proofs.Resumption
import Mosaic.Proofs.Quotients
import Mosaic.Proofs.Predictions
import Mosaic.Proofs.Scalings
import Mosaic.Proofs.Validity
import Mosaic.Proofs.Reports
import Mosaic.Proofs.Snapshots
import Mosaic.Proofs.Seeds
import Mosaic.Proofs.Spellings
import Mosaic.Proofs.Readers
import Mosaic.Proofs.Forms
import Mosaic.Proofs.Savings
import Mosaic.Proofs.Products
import Mosaic.Proofs.Orders
import Mosaic.Proofs.Accounts
import Mosaic.Proofs.Answers
import Mosaic.Proofs.Turns
import Mosaic.Proofs.Sources
import Mosaic.Proofs.Starts
import Mosaic.Proofs.Gates
import Mosaic.Proofs.Rolls
import Mosaic.Proofs.Cuts
import Mosaic.Proofs.Recrops
import Mosaic.Proofs.Counts
import Mosaic.Proofs.Periods
import Mosaic.Proofs.Upscales
import Mosaic.Proofs.Rows
import Mosaic.Proofs.Rankings
import Mosaic.Proofs.FiniteMaps
import Mosaic.Proofs.Rounding
import Mosaic.Proofs.Writes
import Mosaic.Proofs.Texts
import Mosaic.Proofs.Verdicts
import Mosaic.Proofs.Views
import Mosaic.Proofs.Phases
